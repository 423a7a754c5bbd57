import Mathlib.Data.List.Forall2
import NumberedBasic.Memory
import NumberedBasic.Proofs.IntegerParts
import NumberedBasic.Proofs.LexemeReaders

/-!
# Subscripts and places of elements

A subscript is a double. What it stands for is said here with exact numbers: a double that is finite
is a rational number (`Number.value?`), and its integer part is that number with the fraction
dropped (`Number.truncate`). The indices that a list of subscripts stands for are `Grid.Indexes`.
The comparisons of doubles that check a subscript do not round (`Grid.index_eq_ok_iff`).

`offset_eq_ok_iff` says which subscripts an array accepts and where their element is: its place is
the numeral whose digits are the indices, in a mixed radix with one more than its bound for each
dimension (`Grid.place`). Such numerals are below the number of elements (`place_lt`) and different
for different indices (`place_inj`).
-/

set_option autoImplicit false

namespace NumberedBasic

namespace Grid

/-! ## Indices -/

/-- A subscript stands for an index of a dimension: the index is the integer part of the subscript
and not beyond the bound. An undefined number stands for the first index. -/
def IndexOf (bound : ℕ) (x : Float) (i : ℕ) : Prop :=
  (Number.IsUndefined x ∧ i = 0) ∨
    ∃ q, Number.value? x = some q ∧ Number.truncate q = i ∧ i ≤ bound

/-- The indices that subscripts stand for, one for each dimension. -/
inductive Indexes : List ℕ → List Value → List ℕ → Prop
  | nil : Indexes [] [] []
  | cons {bound i : ℕ} {x : Float} {bounds is : List ℕ} {subscripts : List Value}
      (first : IndexOf bound x i) (rest : Indexes bounds subscripts is) :
      Indexes (bound :: bounds) (.number x :: subscripts) (i :: is)

variable {name : Name} {bound i : ℕ} {x : Float} {bounds is js : List ℕ} {subscripts : List Value}

/-- An undefined number is neither less than zero nor beyond a bound. -/
theorem index_of_undefined (undefined : Number.IsUndefined x) : index name bound x = .ok 0 := by
  have parts : Binary.ofFloat x = .undefined := undefined
  have same : Number.truncated x = x := by rw [Number.truncated, parts]
  have none : Number.unsignedWord x = 0 := by
    rw [Number.unsignedWord, Number.saturated, parts]
    rfl
  unfold index
  dsimp only
  rw [same, none, if_neg]
  rintro (less | more)
  · exact (Number.not_lt_of_undefined undefined _).1 less
  · exact (Number.not_lt_of_undefined undefined _).2 more

/-- An infinity is less than zero or beyond every bound. -/
theorem index_of_infinite {negative : Bool} (infinite : Binary.ofFloat x = .infinite negative)
    (small : bound < 2 ^ 53) : index name bound x ≠ .ok i := by
  have same : Number.truncated x = x := by rw [Number.truncated, infinite]
  unfold index
  dsimp only
  rw [same, if_pos]
  · nofun
  cases negative with
  | true => exact .inl (Number.lt_of_infinite infinite Number.value?_zero)
  | false => exact .inr (Number.lt_of_infinite infinite (Number.value?_ofNat small))

/-- A number is an index if its integer part is neither less than zero nor beyond the bound. -/
theorem index_of_value? {q : ℚ} (value : Number.value? x = some q) (small : bound < 2 ^ 53) :
    index name bound x = .ok i ↔ Number.truncate q = i ∧ i ≤ bound := by
  have whole := Number.value?_truncated value
  have below : Number.truncated x < 0.0 ↔ Number.truncate q < 0 := by
    rw [Number.lt_iff whole Number.value?_zero]
    exact_mod_cast Iff.rfl
  have above : Number.truncated x > Float.ofNat bound ↔ (bound : ℤ) < Number.truncate q := by
    rw [gt_iff_lt, Number.lt_iff (Number.value?_ofNat small) whole]
    exact_mod_cast Iff.rfl
  unfold index
  dsimp only
  split
  · rename_i outside
    rw [below, above] at outside
    simp only [reduceCtorEq, false_iff]
    omega
  · rename_i inside
    rw [below, above] at inside
    obtain ⟨n, part⟩ := Int.eq_ofNat_of_zero_le (by omega : 0 ≤ Number.truncate q)
    rw [part, Int.cast_natCast] at whole
    rw [Number.unsignedWord_of_value? whole (by omega), Except.ok.injEq]
    omega

/-- The bounds of one dimension are checked exactly, as a double can hold them. -/
theorem index_eq_ok_iff (small : bound < 2 ^ 53) :
    index name bound x = .ok i ↔ IndexOf bound x i := by
  unfold IndexOf
  cases parts : Binary.ofFloat x with
  | undefined =>
    have none : Number.value? x = none := by rw [Number.value?, parts]; rfl
    have undefined : Number.IsUndefined x := parts
    simp only [index_of_undefined undefined, undefined, none, Except.ok.injEq, reduceCtorEq,
      false_and, exists_false, or_false, true_and]
    exact eq_comm
  | infinite negative =>
    have none : Number.value? x = none := by rw [Number.value?, parts]; rfl
    have defined : ¬Number.IsUndefined x := by simp [Number.IsUndefined, parts]
    simp [index_of_infinite parts small, none, defined]
  | finite negative m e =>
    obtain ⟨q, value⟩ : ∃ q, Number.value? x = some q := ⟨_, by rw [Number.value?, parts]; rfl⟩
    have defined : ¬Number.IsUndefined x := by simp [Number.IsUndefined, parts]
    simp [index_of_value? value small, value, defined]

/-- An index that a subscript stands for is not beyond the bound. -/
theorem IndexOf.le (h : IndexOf bound x i) : i ≤ bound := by
  rcases h with ⟨-, rfl⟩ | ⟨q, -, -, within⟩
  · exact Nat.zero_le bound
  · exact within

/-- No index is beyond the bound of its dimension. -/
theorem Indexes.le (h : Indexes bounds subscripts is) : List.Forall₂ (· ≤ ·) is bounds := by
  induction h with
  | nil => exact .nil
  | cons first rest ih => exact .cons first.le ih

/-- There are as many subscripts as dimensions. -/
theorem Indexes.length_eq (h : Indexes bounds subscripts is) :
    subscripts.length = bounds.length := by
  induction h with
  | nil => rfl
  | cons first rest ih => simp [ih]

/-! ## Places -/

/-- The place of the element with the given indices, with the last one changing fastest. -/
def place : List ℕ → List ℕ → ℕ
  | _ :: bounds, i :: is => i * extent bounds + place bounds is
  | _, _ => 0

/-- One more dimension in front multiplies the number of elements. -/
theorem extent_cons (bound : ℕ) (bounds : List ℕ) :
    extent (bound :: bounds) = (bound + 1) * extent bounds := by
  simp [extent]

/-- Indices within their bounds lead to a place among the elements. -/
theorem place_lt (within : List.Forall₂ (· ≤ ·) is bounds) : place bounds is < extent bounds := by
  induction within with
  | nil => simp [place, extent]
  | @cons i bound is bounds first rest ih =>
    rw [extent_cons, place]
    calc i * extent bounds + place bounds is
        < i * extent bounds + extent bounds := by omega
      _ = (i + 1) * extent bounds := by ring
      _ ≤ (bound + 1) * extent bounds := Nat.mul_le_mul_right _ (by omega)

/-- Different indices lead to different places. -/
theorem place_inj (within : List.Forall₂ (· ≤ ·) is bounds)
    (within' : List.Forall₂ (· ≤ ·) js bounds) (same : place bounds is = place bounds js) :
    is = js := by
  induction within generalizing js with
  | nil =>
    cases within'
    rfl
  | @cons i bound is bounds first rest ih =>
    obtain _ | ⟨first', rest'⟩ := within'
    rename_i j js
    have below := place_lt rest
    have below' := place_lt rest'
    have positive : 0 < extent bounds := by omega
    simp only [place] at same
    -- the first index is the quotient of the place by the extent of the other dimensions
    have quotients := congrArg (· / extent bounds) same
    simp only [Nat.mul_comm _ (extent bounds), Nat.mul_add_div positive, Nat.div_eq_of_lt below,
      Nat.div_eq_of_lt below', Nat.add_zero] at quotients
    subst quotients
    rw [ih rest' (by omega)]

/-- The elements of an array are reached by going through its dimensions in order. -/
theorem offsetFrom_eq_ok_iff {start o : ℕ} (small : ∀ bound ∈ bounds, bound < 2 ^ 53)
    (count : subscripts.length = bounds.length) :
    offsetFrom name start bounds subscripts = .ok o ↔
      ∃ is, Indexes bounds subscripts is ∧ o = start * extent bounds + place bounds is := by
  induction bounds generalizing start subscripts with
  | nil =>
    obtain rfl := List.length_eq_zero_iff.mp count
    simp only [offsetFrom, Except.ok.injEq]
    constructor
    · rintro rfl
      exact ⟨[], .nil, by simp [place, extent]⟩
    · rintro ⟨_, ⟨⟩, rfl⟩
      simp [place, extent]
  | cons bound bounds ih =>
    obtain _ | ⟨subscript, subscripts⟩ := subscripts
    · cases count
    replace count : subscripts.length = bounds.length := by simpa using count
    rw [List.forall_mem_cons] at small
    have checks {x : Float} {i : ℕ} : index name bound x = .ok i ↔ IndexOf bound x i :=
      index_eq_ok_iff small.1
    constructor
    · intro accepted
      obtain ⟨x, number, accepted⟩ := exists_of_bind_eq_ok accepted
      obtain ⟨i, indexed, accepted⟩ := exists_of_bind_eq_ok accepted
      obtain ⟨is, others, rfl⟩ := (ih small.2 count).mp accepted
      cases subscript with
      | string s => cases number
      | number y =>
        cases number
        refine ⟨i :: is, .cons (checks.mp indexed) others, ?_⟩
        rw [extent_cons, place]
        ring
    · rintro ⟨_, indexes, rfl⟩
      obtain _ | @⟨_, i, x, _, is, _, first, rest⟩ := indexes
      show (index name bound x >>= fun i => offsetFrom name _ bounds subscripts) = _
      rw [bind_of_eq_ok (checks.mpr first), ih small.2 count]
      refine ⟨is, rest, ?_⟩
      rw [extent_cons, place]
      ring

/-- Every array has an element. -/
theorem extent_pos (bounds : List ℕ) : 0 < extent bounds := by
  induction bounds with
  | nil => simp [extent]
  | cons bound bounds ih =>
    rw [extent_cons]
    positivity

/-- A dimension is not longer than the array. -/
theorem lt_extent (inside : bound ∈ bounds) : bound < extent bounds := by
  induction bounds with
  | nil => cases inside
  | cons first bounds ih =>
    have positive := extent_pos bounds
    rw [extent_cons]
    rcases List.mem_cons.mp inside with rfl | inside
    · nlinarith
    · have below := ih inside
      nlinarith

/-- The bounds of an array are small enough for doubles to hold them. -/
theorem lt_of_mem (grid : Grid) : ∀ bound ∈ grid.bounds, bound < 2 ^ 53 := by
  intro bound member
  have below := lt_extent member
  rw [← grid.sized] at below
  exact below.trans_le (grid.small.trans (by decide))

/-- Which subscripts an array accepts, and the place of the element they lead to. -/
theorem offset_eq_ok_iff {grid : Grid} {o : ℕ} :
    grid.offset name subscripts = .ok o ↔
      ∃ is, Indexes grid.bounds subscripts is ∧ o = place grid.bounds is := by
  unfold offset
  by_cases count : subscripts.length = grid.bounds.length
  · rw [if_pos count, offsetFrom_eq_ok_iff grid.lt_of_mem count]
    simp
  · rw [if_neg count]
    simp only [reduceCtorEq, false_iff]
    rintro ⟨is, indexes, -⟩
    exact count indexes.length_eq

/-- An accepted list of subscripts leads to one of the elements. -/
theorem lt_size_of_offset {grid : Grid} {o : ℕ} (h : grid.offset name subscripts = .ok o) :
    o < grid.cells.size := by
  obtain ⟨is, indexes, rfl⟩ := offset_eq_ok_iff.mp h
  rw [grid.full, grid.sized]
  exact place_lt indexes.le

end Grid

end NumberedBasic
