import NumberedBasic.Proofs.Subscripts

/-!
# Arrays as stores

`Memory.Call` are the operations on a memory, and `Memory.afterAll` is the memory after a sequence
of them, in which those that fail change nothing. A declaration is checked by comparisons of
doubles, and these do not round (`Grid.declares_of_bound`).

Two results are about accesses to elements. `Memory.arrays_are_faithful` says that the elements of
an array are kept apart: what is stored under some indices is read under the same indices and
nowhere else. `Memory.access_checks_bounds` says which accesses succeed.
-/

set_option autoImplicit false

namespace NumberedBasic

/-! ## Whole numbers -/

namespace Number

/-- The integer part of a number as an unsigned integer of 64 bits. What is below zero or undefined
becomes zero, and what is too large becomes the largest integer. -/
def toUnsigned (x : Float) : ℕ :=
  match value? x with
  | some q => min (truncate q).toNat (2 ^ 64 - 1)
  | none => if Binary.ofFloat x = .infinite false then 2 ^ 64 - 1 else 0

/-- The integer part of a number is one of the integers from zero to a bound. -/
def IsIndex (bound : ℕ) (x : Float) : Prop :=
  ∃ q, value? x = some q ∧ ∃ i : ℕ, i ≤ bound ∧ truncate q = i

end Number

/-- The whole-number index of a subscript. -/
def Value.wholeIndex : Value → ℕ
  | .number x => Number.toUnsigned x
  | .string _ => 0

namespace Grid

variable {name : Name} {bound i : ℕ} {x : Float} {bounds is : List ℕ} {subscripts : List Value}

/-- Below the largest machine word, the conversion of a subscript gives the index it stands for. -/
theorem IndexOf.toUnsigned_eq (h : IndexOf bound x i) (small : bound < 2 ^ 64) :
    Number.toUnsigned x = i := by
  unfold Number.toUnsigned
  rcases h with ⟨undefined, rfl⟩ | ⟨q, value, part, within⟩
  · have none : Number.value? x = none := by
      rw [Number.value?, undefined]
      rfl
    simp only [none]
    rw [undefined, if_neg (by simp)]
  · simp only [value, part]
    omega

/-- The indices of subscripts that are accepted are their whole numbers. -/
theorem Indexes.map_wholeIndex (h : Indexes bounds subscripts is)
    (small : ∀ bound ∈ bounds, bound < 2 ^ 64) : subscripts.map Value.wholeIndex = is := by
  induction h with
  | nil => rfl
  | cons first rest ih =>
    rw [List.forall_mem_cons] at small
    rw [List.map_cons, ih small.2]
    exact congrArg (· :: _) (first.toUnsigned_eq small.1)

/-- The number of elements of an array is the product of the numbers of values of its subscripts. -/
theorem extent_eq_prod (bounds : List ℕ) : extent bounds = (bounds.map (· + 1)).prod := by
  induction bounds with
  | nil => rfl
  | cons bound bounds ih => rw [extent_cons, List.map_cons, List.prod_cons, ih]

/-- Two lists of subscripts that are accepted lead to the same element exactly if their whole
numbers agree. -/
theorem offset_eq_iff {grid : Grid} {first second : List Value} {o p : ℕ}
    (accepted : grid.offset name first = .ok o) (accepted' : grid.offset name second = .ok p) :
    o = p ↔ first.map Value.wholeIndex = second.map Value.wholeIndex := by
  obtain ⟨is, indexes, rfl⟩ := offset_eq_ok_iff.mp accepted
  obtain ⟨js, indexes', rfl⟩ := offset_eq_ok_iff.mp accepted'
  have words : ∀ bound ∈ grid.bounds, bound < 2 ^ 64 :=
    fun bound inside => (grid.lt_of_mem bound inside).trans (by decide)
  rw [indexes.map_wholeIndex words, indexes'.map_wholeIndex words]
  exact ⟨place_inj indexes.le indexes'.le, congrArg (place grid.bounds)⟩

/-! ## Declarations -/

/-- A value declares a dimension with a bound: it is a number, it has no fraction, and it is the
bound. -/
def Declares (value : Value) (bound : ℕ) : Prop :=
  ∃ x, value = .number x ∧ Number.value? x = some (bound : ℚ) ∧ 1 ≤ bound

/-- The comparisons that check a dimension do not round. -/
theorem declares_of_bound (h : Grid.bound name x = .ok bound) : Declares (.number x) bound := by
  unfold Grid.bound at h
  split at h
  · cases h
  rename_i valid
  rw [not_or, not_or] at valid
  obtain ⟨whole, notBelow, notAbove⟩ := valid
  have whole : (Number.fraction x == 0.0) = true := by simpa [bne] using whole
  obtain ⟨q, value⟩ := Number.exists_value_of_fraction whole
  have integer := (Number.fraction_eq_zero_iff value).mp whole
  have one : Number.value? 1.0 = some 1 := by decide +kernel
  rw [Number.lt_iff value one, not_lt] at notBelow
  rw [gt_iff_lt, Number.lt_iff (Number.value?_ofNat (by decide)) value, not_lt] at notAbove
  rw [← integer] at value notBelow notAbove
  have low : 1 ≤ Number.truncate q := by exact_mod_cast notBelow
  have high : Number.truncate q ≤ maxElements := by exact_mod_cast notAbove
  obtain ⟨n, part⟩ := Int.eq_ofNat_of_zero_le (by omega : 0 ≤ Number.truncate q)
  rw [part, Int.cast_natCast] at value
  have small : n < 2 ^ 53 := by
    unfold maxElements at high
    omega
  rw [Number.unsignedWord_of_value? value small] at h
  cases h
  exact ⟨x, rfl, value, by omega⟩

/-- A declaration that is accepted adds the dimensions that it gives. -/
theorem exists_of_shapeFrom {shape result : Shape} {values : List Value}
    (h : shapeFrom name shape values = .ok result) :
    ∃ bounds, List.Forall₂ Declares values bounds ∧ result.bounds = shape.bounds ++ bounds := by
  induction values generalizing shape with
  | nil =>
    cases h
    exact ⟨[], .nil, (List.append_nil _).symm⟩
  | cons value values ih =>
    obtain ⟨x, number, bounded⟩ := exists_of_bind_eq_ok h
    obtain ⟨b, first, sized⟩ := exists_of_bind_eq_ok bounded
    cases value with
    | string s => cases number
    | number y =>
      cases number
      split at sized
      · obtain ⟨bounds, declared, added⟩ := ih sized
        exact ⟨b :: bounds, .cons (declares_of_bound first) declared, by simp [added, Shape.extend]⟩
      · cases sized

end Grid

/-! ## Lookups -/

/-- A table that is given an entry has that one under its name and the others unchanged. -/
theorem lookup_insert {β : Type} (table : Std.TreeMap Name β) (name other : Name) (b : β) :
    (table.insert name b)[other]? = if other = name then some b else table[other]? := by
  rw [Std.TreeMap.getElem?_insert]
  by_cases same : other = name
  · simp [same]
  · simp [same, Ne.symm same]

/-- Changing an entry of a table changes what is found under its name alone. -/
theorem lookup_modify {β : Type} (table : Std.TreeMap Name β) (name other : Name) (f : β → β) :
    (table.modify name f)[other]? =
      if other = name then table[other]?.map f else table[other]? := by
  rw [Std.TreeMap.getElem?_modify]
  by_cases same : other = name
  · simp [same]
  · simp [same, Ne.symm same]

namespace Memory

variable {memory stored : Memory} {name : Name} {grid : Grid} {subscripts : List Value}
  {value : Value}

/-- An element of a declared array is read at the place that its subscripts lead to. -/
theorem fetchElement_of_array (declared : memory.arrays[name]? = some grid)
    (subscripts : List Value) :
    memory.fetchElement name subscripts =
      (grid.offset name subscripts).map (grid.cells.getD · (Value.default name)) := by
  have found : memory.array name = .ok grid := by simp only [array, declared]
  unfold fetchElement
  rw [bind_of_eq_ok found]
  cases grid.offset name subscripts <;> rfl

/-- A value is stored in a declared array if it fits and its subscripts lead to a place. -/
theorem storeElement_of_array (declared : memory.arrays[name]? = some grid)
    (fits : value.fits name = true) (subscripts : List Value) :
    memory.storeElement name subscripts value =
      (grid.offset name subscripts).map (memory.putElement name · value) := by
  have checked : value.check name = .ok () := if_pos fits
  have found : memory.array name = .ok grid := by simp only [array, declared]
  unfold storeElement target
  rw [bind_of_eq_ok checked, bind_of_eq_ok found]
  cases grid.offset name subscripts <;> rfl

/-- What a value that has been stored was stored into. -/
theorem exists_of_storeElement (h : memory.storeElement name subscripts value = .ok stored) :
    ∃ grid o, memory.arrays[name]? = some grid ∧ grid.offset name subscripts = .ok o ∧
      stored = memory.putElement name o value := by
  obtain ⟨o, placed, h⟩ := exists_of_bind_eq_ok h
  obtain ⟨-, -, placed⟩ := exists_of_bind_eq_ok placed
  obtain ⟨grid, found, placed⟩ := exists_of_bind_eq_ok placed
  cases h
  unfold array at found
  split at found
  · next declared =>
    cases found
    exact ⟨_, o, declared, placed, rfl⟩
  · cases found

/-- Assigning to an element changes the array of that name, at one offset, and no other array. -/
theorem arrays_putElement (memory : Memory) (name other : Name) (o : ℕ) (value : Value) :
    (memory.putElement name o value).arrays[other]? =
      if other = name then memory.arrays[other]?.map (·.set o value) else memory.arrays[other]? :=
  lookup_modify memory.arrays name other _

/-- What a declaration that was accepted has declared. -/
theorem exists_of_dimension {bounds : List Value}
    (h : memory.dimension name bounds = .ok stored) :
    ∃ shape : Shape, List.Forall₂ Grid.Declares bounds shape.bounds ∧
      stored = { memory with
        arrays := memory.arrays.insert name (.filled shape (Value.default name)) } := by
  unfold dimension at h
  split at h
  · cases h
  · obtain ⟨shape, read, h⟩ := exists_of_bind_eq_ok h
    cases h
    obtain ⟨sizes, declares, same⟩ := Grid.exists_of_shapeFrom read
    have same : shape.bounds = sizes := same
    exact ⟨shape, by rwa [same], rfl⟩

/-! ## Calls -/

/-- The operations on a memory. -/
inductive Call where
  | store (name : Name) (value : Value)
  | dimension (name : Name) (bounds : List Value)
  | storeElement (name : Name) (subscripts : List Value) (value : Value)
  | clear

/-- The memory that an operation yields. -/
def call (memory : Memory) : Call → Except Fault Memory
  | .store name value => memory.store name value
  | .dimension name bounds => memory.dimension name bounds
  | .storeElement name subscripts value => memory.storeElement name subscripts value
  | .clear => .ok empty

/-- The memory after an operation. -/
def after (memory : Memory) (call : Call) : Memory :=
  match memory.call call with
  | .ok updated => updated
  | .error _ => memory

/-- The memory after operations in order. -/
def afterAll (memory : Memory) (calls : List Call) : Memory :=
  calls.foldl after memory

/-- An operation that fails changes nothing. -/
theorem after_of_error {call : Call} {fault : Fault} (h : memory.call call = .error fault) :
    memory.after call = memory := by
  simp only [after, h]

end Memory

/-! ## Elements are kept apart -/

/-- An array as a store with several dimensions. -/
structure Grid.Faithful (name : Name) (grid : Grid) : Prop where
  size_eq : grid.cells.size = (grid.bounds.map (· + 1)).prod
  size_le : grid.cells.size ≤ 2 ^ 24
  inside : ∀ subscripts o, grid.offset name subscripts = .ok o → o < grid.cells.size
  apart : ∀ first second o p, grid.offset name first = .ok o → grid.offset name second = .ok p →
    (o = p ↔ first.map Value.wholeIndex = second.map Value.wholeIndex)

namespace Memory

/-- Two lists of subscripts are accepted and lead to the same element of an array. -/
def SameElement (memory : Memory) (name : Name) (first second : List Value) : Prop :=
  ∃ grid o, memory.arrays[name]? = some grid ∧ grid.offset name first = .ok o ∧
    grid.offset name second = .ok o

/-- What can be read after a value has been stored in an element: the value there, and everywhere
else what could be read before. -/
structure Stored (memory : Memory) (name : Name) (subscripts : List Value) (value : Value)
    (stored : Memory) : Prop where
  same : ∀ others, memory.SameElement name subscripts others →
    stored.fetchElement name others = .ok value
  other : ∀ others, ¬memory.SameElement name subscripts others →
    stored.fetchElement name others = memory.fetchElement name others
  arrays : ∀ array, array ≠ name → stored.arrays[array]? = memory.arrays[array]?
  scalars : ∀ scalar, stored.fetch scalar = memory.fetch scalar

/-- What can be read after an array has been declared: it has the bounds that were given, and all
its elements are alike. -/
structure Declared (memory : Memory) (name : Name) (bounds : List Value) (declared : Memory)
    (grid : Grid) : Prop where
  array : declared.arrays[name]? = some grid
  bounds : List.Forall₂ Grid.Declares bounds grid.bounds
  cells : ∀ value ∈ grid.cells, value = Value.default name
  elements : ∀ subscripts o, grid.offset name subscripts = .ok o →
    declared.fetchElement name subscripts = .ok (Value.default name)
  arrays : ∀ array, array ≠ name → declared.arrays[array]? = memory.arrays[array]?
  scalars : ∀ scalar, declared.fetch scalar = memory.fetch scalar

variable {memory stored declared : Memory} {name : Name} {grid : Grid} {subscripts : List Value}
  {value : Value}

/-- A grid keeps its elements apart whatever its bounds are, because it is filled to its extent. -/
theorem faithful (name : Name) (grid : Grid) : grid.Faithful name where
  size_eq := (grid.full.trans grid.sized).trans (Grid.extent_eq_prod grid.bounds)
  size_le := grid.full.trans_le grid.small
  inside _ _ := Grid.lt_size_of_offset
  apart _ _ _ _ := Grid.offset_eq_iff

/-- A value that has been stored is read where it was stored and nowhere else. -/
theorem stored_of_storeElement (h : memory.storeElement name subscripts value = .ok stored) :
    Stored memory name subscripts value stored := by
  obtain ⟨grid, o, found, placed, rfl⟩ := exists_of_storeElement h
  have inside := Grid.lt_size_of_offset placed
  -- the array has the same bounds as before, so it accepts the same subscripts
  have changed : (memory.putElement name o value).arrays[name]? = some (grid.set o value) := by
    rw [arrays_putElement, if_pos rfl, found]
    rfl
  have offsets : ∀ others, (grid.set o value).offset name others = grid.offset name others :=
    fun _ => rfl
  refine ⟨fun others shared => ?_, fun others apart => ?_, fun array other => ?_, fun _ => rfl⟩
  · obtain ⟨_, p, found', placed', reached⟩ := shared
    cases found.symm.trans found'
    cases placed.symm.trans placed'
    rw [fetchElement_of_array changed, offsets, reached]
    simp [Except.map, Grid.set, Array.getD_eq_getD_getElem?, inside]
  · rw [fetchElement_of_array changed, fetchElement_of_array found, offsets]
    cases reached : grid.offset name others with
    | error fault => rfl
    | ok p =>
      have differ : o ≠ p := by
        rintro rfl
        exact apart ⟨grid, o, found, placed, reached⟩
      simp [Except.map, Grid.set, Array.getD_eq_getD_getElem?,
        Array.getElem?_setIfInBounds_ne differ]
  · rw [arrays_putElement, if_neg other]

/-- An array that has been declared holds nothing but defaults. -/
theorem declared_of_dimension {bounds : List Value}
    (h : memory.dimension name bounds = .ok declared) :
    ∃ grid, Declared memory name bounds declared grid := by
  obtain ⟨shape, declares, rfl⟩ := exists_of_dimension h
  let grid := Grid.filled shape (Value.default name)
  have found : (memory.arrays.insert name grid)[name]? = some grid := by
    rw [lookup_insert, if_pos rfl]
  have cells : ∀ value ∈ grid.cells, value = Value.default name := by
    intro value inside
    exact (Array.mem_replicate.mp inside).2
  refine ⟨grid, found, declares, cells, fun subscripts o placed => ?_, fun array other => ?_,
    fun _ => rfl⟩
  · have inside := Grid.lt_size_of_offset placed
    rw [fetchElement_of_array found, placed]
    have read := cells _ (Array.getElem_mem inside)
    simp [Except.map, Array.getD_eq_getD_getElem?, inside, read]
  · show (memory.arrays.insert name grid)[array]? = _
    rw [lookup_insert, if_neg other]

/-- Arrays are faithful stores, whatever has been done to a memory before. Operations that fail
change nothing; every array has as many elements as its bounds say and not too many; subscripts that
are accepted lead to one of them, and to the same one exactly if their whole numbers agree; a value
that is stored in an element is read there, and nothing else is changed; and an array that is
declared holds nothing but defaults. -/
theorem arrays_are_faithful (calls : List Call) :
    let memory := empty.afterAll calls
    (∀ call fault, memory.call call = .error fault → memory.after call = memory) ∧
    (∀ (name : Name) (grid : Grid), memory.arrays[name]? = some grid → grid.Faithful name) ∧
    (∀ name subscripts value stored, memory.storeElement name subscripts value = .ok stored →
      Stored memory name subscripts value stored) ∧
    ∀ name bounds declared, memory.dimension name bounds = .ok declared →
      ∃ grid, Declared memory name bounds declared grid := by
  intro memory
  refine ⟨fun _ _ => after_of_error, fun name grid _ => faithful name grid, fun _ _ _ _ => ?_,
    fun _ _ _ => declared_of_dimension⟩
  exact stored_of_storeElement

/-- An array with two dimensions beside a variable of the same name, after two operations that have
failed. Subscripts with a fraction lead to the element without it. -/
theorem arrays_are_faithful_plane :
    let calls : List Call :=
      [.store "A" (.number 7.0), .dimension "A" [.number 2.0, .number 3.0],
        .dimension "A" [.number 9.0], .storeElement "A" [.number 3.0, .number 0.0] (.number 1.0)]
    let memory := empty.afterAll calls
    ∃ grid stored, memory.arrays["A"]? = some grid ∧ grid.Faithful "A" ∧ grid.cells.size = 12 ∧
      memory.storeElement "A" [.number 1.0, .number 2.0] (.number 5.0) = .ok stored ∧
      stored.fetchElement "A" [.number 1.9, .number 2.0] = .ok (.number 5.0) ∧
      stored.fetchElement "A" [.number 2.0, .number 1.0] = .ok (.number 0.0) ∧
      stored.fetch "A" = .number 7.0 := by
  intro calls memory
  let test (grid : Grid) : Bool :=
    grid.cells.size == 12 && grid.offset "A" [.number 1.0, .number 2.0] == .ok 6 &&
      grid.offset "A" [.number 1.9, .number 2.0] == .ok 6 &&
      grid.offset "A" [.number 2.0, .number 1.0] == .ok 9
  have computed : memory.arrays["A"]?.any test = true := by decide +kernel
  obtain ⟨grid, found, tested⟩ := (Option.any_eq_true _ _).mp computed
  simp only [test, Bool.and_eq_true, beq_iff_eq] at tested
  obtain ⟨⟨⟨size, placed⟩, same⟩, apart⟩ := tested
  have done : memory.storeElement "A" [.number 1.0, .number 2.0] (.number 5.0) =
      .ok (memory.putElement "A" 6 (.number 5.0)) := by
    rw [storeElement_of_array found (by decide), placed]
    rfl
  have differ : ¬memory.SameElement "A" [.number 1.0, .number 2.0] [.number 2.0, .number 1.0] := by
    rintro ⟨_, o, found', placed', apart'⟩
    cases found.symm.trans found'
    cases placed.symm.trans placed'
    cases apart.symm.trans apart'
  obtain ⟨-, faithful, stores, -⟩ := arrays_are_faithful calls
  have kept := stores _ _ _ _ done
  refine ⟨grid, _, found, faithful _ _ found, size, done, ?_, ?_, ?_⟩
  · exact kept.same _ ⟨grid, 6, found, placed, same⟩
  · rw [kept.other _ differ]
    decide +kernel
  · rw [kept.scalars]
    decide +kernel

end Memory

/-! ## Accesses are checked -/

namespace Grid

variable {name : Name} {grid : Grid} {bound : ℕ} {x : Float} {bounds : List ℕ}
  {subscripts : List Value}

/-- There are as many subscripts as dimensions, all of them are numbers, and the integer part of
each is one of the integers from zero to the bound of its dimension. -/
def Within (grid : Grid) (subscripts : List Value) : Prop :=
  List.Forall₂ (fun bound subscript => ∃ x, subscript = .number x ∧ Number.IsIndex bound x)
    grid.bounds subscripts

/-- The same, except that nothing is asked of undefined numbers. -/
def Admits (grid : Grid) (subscripts : List Value) : Prop :=
  List.Forall₂
    (fun bound subscript =>
      ∃ x, subscript = .number x ∧ (Number.IsUndefined x ∨ Number.IsIndex bound x))
    grid.bounds subscripts

/-- The numbers that some index of a dimension belongs to are the undefined ones and those whose
integer part lies within the bound. -/
theorem exists_indexOf_iff :
    (∃ i, IndexOf bound x i) ↔ Number.IsUndefined x ∨ Number.IsIndex bound x := by
  constructor
  · rintro ⟨i, ⟨undefined, -⟩ | ⟨q, value, part, within⟩⟩
    · exact .inl undefined
    · exact .inr ⟨q, value, i, within, part⟩
  · rintro (undefined | ⟨q, value, i, within, part⟩)
    · exact ⟨0, .inl ⟨undefined, rfl⟩⟩
    · exact ⟨i, .inr ⟨q, value, part, within⟩⟩

/-- Subscripts that have indexes are as many numbers as there are bounds, each of them within its
own. -/
theorem exists_indexes_iff :
    (∃ is, Indexes bounds subscripts is) ↔
      List.Forall₂
        (fun bound subscript =>
          ∃ x, subscript = .number x ∧ (Number.IsUndefined x ∨ Number.IsIndex bound x))
        bounds subscripts := by
  constructor
  · rintro ⟨is, indexes⟩
    induction indexes with
    | nil => exact .nil
    | cons first rest ih => exact .cons ⟨_, rfl, exists_indexOf_iff.mp ⟨_, first⟩⟩ ih
  · intro admitted
    induction admitted with
    | nil => exact ⟨[], .nil⟩
    | cons first rest ih =>
      obtain ⟨x, rfl, admitted⟩ := first
      obtain ⟨i, indexed⟩ := exists_indexOf_iff.mpr admitted
      obtain ⟨is, indexes⟩ := ih
      exact ⟨i :: is, .cons indexed indexes⟩

/-- The subscripts that lead to an element are those that are admitted. -/
theorem admits_iff : grid.Admits subscripts ↔ ∃ o, grid.offset name subscripts = .ok o := by
  rw [Admits, ← exists_indexes_iff]
  simp only [offset_eq_ok_iff]
  exact ⟨fun ⟨is, indexes⟩ => ⟨_, is, indexes, rfl⟩, fun ⟨_, is, indexes, _⟩ => ⟨is, indexes⟩⟩

/-- Subscripts within the bounds are admitted. -/
theorem Within.admits (within : grid.Within subscripts) : grid.Admits subscripts :=
  within.imp fun _ _ ⟨x, number, index⟩ => ⟨x, number, .inr index⟩

/-- Only undefined numbers are admitted that should not be. -/
theorem Admits.within (admits : grid.Admits subscripts)
    (defined : ∀ x, .number x ∈ subscripts → ¬Number.IsUndefined x) : grid.Within subscripts := by
  unfold Within
  unfold Admits at admits
  generalize grid.bounds = bounds at admits ⊢
  induction admits with
  | nil => exact .nil
  | cons first rest ih =>
    obtain ⟨x, rfl, admitted⟩ := first
    refine .cons ⟨x, rfl, admitted.resolve_left (defined x List.mem_cons_self)⟩ ?_
    exact ih fun y inside => defined y (List.mem_cons_of_mem _ inside)

end Grid

namespace Memory

variable {memory : Memory} {name : Name} {grid : Grid}

/-- Accesses to the elements of an array that has been declared are checked against its bounds.

* Subscripts that are admitted lead to an element: it can be read, and a value of the right type can
  be stored in it.
* With all other subscripts both fail, and nothing is changed.
* Subscripts within the bounds are admitted, and so are no others but those with an undefined number
  among them. -/
theorem access_checks_bounds (declared : memory.arrays[name]? = some grid)
    (subscripts : List Value) :
    (grid.Admits subscripts →
      (∃ value ∈ grid.cells, memory.fetchElement name subscripts = .ok value) ∧
      ∀ value, value.fits name = true →
        ∃ stored, memory.storeElement name subscripts value = .ok stored) ∧
    (¬grid.Admits subscripts →
      (∃ fault, memory.fetchElement name subscripts = .error fault) ∧
      ∀ value, (∃ fault, memory.storeElement name subscripts value = .error fault) ∧
        memory.after (.storeElement name subscripts value) = memory) ∧
    (grid.Within subscripts → grid.Admits subscripts) ∧
    ((∀ x, .number x ∈ subscripts → ¬Number.IsUndefined x) →
      grid.Admits subscripts → grid.Within subscripts) := by
  refine ⟨fun admits => ?_, fun refused => ?_, Grid.Within.admits, fun defined admits =>
    admits.within defined⟩
  · obtain ⟨o, placed⟩ := Grid.admits_iff.mp admits
    have inside := Grid.lt_size_of_offset placed
    refine ⟨⟨_, Array.getElem_mem inside, ?_⟩, fun value fits =>
      ⟨memory.putElement name o value, ?_⟩⟩
    · rw [fetchElement_of_array declared, placed]
      simp [Except.map, Array.getD_eq_getD_getElem?, inside]
    · rw [storeElement_of_array declared fits, placed]
      rfl
  · cases failed : grid.offset name subscripts with
    | ok o => exact absurd (Grid.admits_iff.mpr ⟨o, failed⟩) refused
    | error fault =>
      refine ⟨⟨fault, ?_⟩, fun value => ?_⟩
      · rw [fetchElement_of_array declared, failed]
        rfl
      · cases done : memory.storeElement name subscripts value with
        | error fault => exact ⟨⟨fault, rfl⟩, after_of_error done⟩
        | ok stored =>
          obtain ⟨_, o, declared', placed, -⟩ := exists_of_storeElement done
          cases declared.symm.trans declared'
          cases failed.symm.trans placed

/-- Fractions next to the ends of the dimensions are within the bounds, and infinite numbers are
not. -/
theorem access_checks_bounds_edges :
    let memory := empty.afterAll [.dimension "A" [.number 2.0, .number 3.0]]
    ∃ grid value fault, memory.arrays["A"]? = some grid ∧
      grid.Within [.number (-0.5), .number 3.75] ∧
      memory.fetchElement "A" [.number (-0.5), .number 3.75] = .ok value ∧
      ¬grid.Within [.number 0.0, .number (1.0 / 0.0)] ∧
      memory.fetchElement "A" [.number 0.0, .number (1.0 / 0.0)] = .error fault := by
  intro memory
  have computed : memory.arrays["A"]?.any (·.bounds == [2, 3]) = true := by decide +kernel
  obtain ⟨grid, found, tested⟩ := (Option.any_eq_true _ _).mp computed
  have bounds : grid.bounds = [2, 3] := beq_iff_eq.mp tested
  have half : Number.value? (-0.5) = some (-1 / 2) := by
    have parts : Binary.ofFloat (-0.5) = .finite true (2 ^ 52) (-53) := by decide +kernel
    norm_num [Number.value?, parts, Binary.value?]
  have quarters : Number.value? 3.75 = some (15 / 4) := by
    have parts : Binary.ofFloat 3.75 = .finite false (15 * 2 ^ 49) (-51) := by decide +kernel
    norm_num [Number.value?, parts, Binary.value?]
  have infinite : Number.value? (1.0 / 0.0) = none := by
    have parts : Binary.ofFloat (1.0 / 0.0) = .infinite false := by decide +kernel
    rw [Number.value?, parts]
    rfl
  have within : grid.Within [.number (-0.5), .number 3.75] := by
    rw [Grid.Within, bounds]
    refine .cons ⟨_, rfl, _, half, ?_⟩ (.cons ⟨_, rfl, _, quarters, ?_⟩ .nil)
    · exact Number.truncate_mem_iff.mpr (by norm_num)
    · exact Number.truncate_mem_iff.mpr (by norm_num)
  have outside : ¬grid.Within [.number 0.0, .number (1.0 / 0.0)] := by
    rw [Grid.Within, bounds]
    rintro (_ | ⟨-, _ | ⟨⟨_, ⟨⟩, q, value, -⟩, -⟩⟩)
    cases infinite.symm.trans value
  obtain ⟨reads, -, admits, -⟩ := access_checks_bounds found [.number (-0.5), .number 3.75]
  obtain ⟨-, fails, -, exceeds⟩ := access_checks_bounds found [.number 0.0, .number (1.0 / 0.0)]
  have defined : ∀ x, .number x ∈ [Value.number 0.0, .number (1.0 / 0.0)] →
      ¬Number.IsUndefined x := by
    intro x inside
    rcases List.mem_cons.mp inside with same | inside
    · cases same
      unfold Number.IsUndefined
      decide +kernel
    · cases List.mem_singleton.mp inside
      unfold Number.IsUndefined
      decide +kernel
  obtain ⟨⟨value, -, read⟩, -⟩ := reads (admits within)
  obtain ⟨⟨fault, failed⟩, -⟩ := fails fun admitted => outside (exceeds defined admitted)
  exact ⟨grid, value, fault, found, within, read, outside, failed⟩

/-- An undefined number is not within any bounds, but it is let through as the first index. -/
theorem undefined_subscript_admitted :
    let memory := empty.afterAll [.dimension "A" [.number 5.0]]
    ∃ grid, memory.arrays["A"]? = some grid ∧ ¬grid.Within [.number (0.0 / 0.0)] ∧
      memory.fetchElement "A" [.number (0.0 / 0.0)] = .ok (.number 0.0) ∧
      (memory.after (.storeElement "A" [.number (0.0 / 0.0)] (.number 7.0))).fetchElement "A"
        [.number 0.0] = .ok (.number 7.0) := by
  intro memory
  have computed : memory.arrays["A"]?.isSome = true := by decide +kernel
  obtain ⟨grid, found⟩ := Option.isSome_iff_exists.mp computed
  refine ⟨grid, found, ?_, by decide +kernel, by decide +kernel⟩
  have undefined : Number.value? (0.0 / 0.0) = none := by
    have parts : Binary.ofFloat (0.0 / 0.0) = .undefined := by decide +kernel
    rw [Number.value?, parts]
    rfl
  unfold Grid.Within
  generalize grid.bounds = bounds
  rintro (_ | ⟨⟨_, ⟨⟩, q, value, -⟩, -⟩)
  cases undefined.symm.trans value

end Memory

end NumberedBasic
