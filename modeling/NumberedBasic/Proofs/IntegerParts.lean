import NumberedBasic.Proofs.Nearest

/-!
# Integer parts and fractions

The operations that take a number apart do not round. The integer part of a double is a double
(`Number.value?_truncated`), taking it away leaves nothing exactly if the double is a whole number
(`Number.fraction_eq_zero_iff`), and a double whose integer part is within the bounds of a word is
made into that word (`Number.saturated_eq`).
-/

set_option autoImplicit false

namespace NumberedBasic.Number

open Float.Model Float.Model.UnpackedFloat

variable {x : Float} {q : ℚ}

/-! ## Doubles without a value -/

/-- An undefined number is neither less nor greater than any other. -/
theorem not_lt_of_undefined (undefined : IsUndefined x) (y : Float) : ¬x < y ∧ ¬y < x := by
  have unpacked : x.toModel.unpack = .notANumber := by
    unfold IsUndefined Binary.ofFloat at undefined
    split at undefined <;> first | assumption | cases undefined
  have left : x.toModel.unpack.compare y.toModel.unpack = none := by
    rw [unpacked]
    cases y.toModel.unpack <;> rfl
  have right : y.toModel.unpack.compare x.toModel.unpack = none := by
    rw [unpacked]
    cases y.toModel.unpack <;> rfl
  constructor
  · show ¬decide ((x.toModel.unpack.compare y.toModel.unpack == some .lt) = true) = true
    rw [left]
    decide
  · show ¬decide ((y.toModel.unpack.compare x.toModel.unpack == some .lt) = true) = true
    rw [right]
    decide

/-- An infinity is on one side of every number. -/
theorem lt_of_infinite {y : Float} {negative : Bool}
    (infinite : Binary.ofFloat x = .infinite negative) (value : value? y = some q) :
    if negative then x < y else y < x := by
  have unpacked : x.toModel.unpack = .infinity (if negative then .negative else .positive) := by
    unfold Binary.ofFloat at infinite
    split at infinite
    · cases infinite
    · rename_i s unpacked
      cases infinite
      rw [unpacked]
      cases s <;> rfl
    · cases infinite
    · cases infinite
  cases negative with
  | true =>
    show decide ((x.toModel.unpack.compare y.toModel.unpack == some .lt) = true) = true
    rw [unpacked]
    obtain ⟨s, other⟩ | ⟨s, m, e, positive, other⟩ := of_value? value <;> rw [other] <;> rfl
  | false =>
    show decide ((y.toModel.unpack.compare x.toModel.unpack == some .lt) = true) = true
    rw [unpacked]
    obtain ⟨s, other⟩ | ⟨s, m, e, positive, other⟩ := of_value? value <;>
      rw [other] <;> cases s <;> rfl

/-- What lies between two numbers is a number. -/
theorem exists_value_of_le {a b : Float} {p r : ℚ} (least : value? a = some p)
    (most : value? b = some r) (above : a ≤ x) (below : x ≤ b) : ∃ q, value? x = some q := by
  change decide ((a.toModel.unpack.compare x.toModel.unpack).any (·.isLE) = true) = true at above
  change decide ((x.toModel.unpack.compare b.toModel.unpack).any (·.isLE) = true) = true at below
  cases unpacked : x.toModel.unpack with
  | zero s => exact ⟨_, value?_of_zero unpacked⟩
  | finite s m e positive => exact ⟨_, value?_of_finite unpacked⟩
  | notANumber =>
    rw [unpacked] at above
    cases other : a.toModel.unpack <;> rw [other] at above <;> cases above
  | infinity s =>
    rw [unpacked] at above below
    cases s with
    | positive =>
      obtain ⟨s, other⟩ | ⟨s, m, e, positive, other⟩ := of_value? most <;>
        rw [other] at below <;> cases below
    | negative =>
      obtain ⟨s, other⟩ | ⟨s, m, e, positive, other⟩ := of_value? least <;>
        rw [other] at above <;> cases s <;> cases above

/-! ## Integer parts -/

/-- The parts of a double with a value. -/
theorem exists_ofFloat_eq (value : value? x = some q) :
    ∃ negative m e, Binary.ofFloat x = .finite negative m e ∧ |q| = m * 2 ^ e ∧
      q = if negative then -(m * 2 ^ e : ℚ) else m * 2 ^ e := by
  unfold value? at value
  cases parts : Binary.ofFloat x with
  | undefined | infinite negative =>
    rw [parts] at value
    cases value
  | finite negative m e =>
    have size : (0 : ℚ) ≤ m * 2 ^ e := by positivity
    rw [parts, Binary.value?, Option.some.injEq] at value
    refine ⟨negative, m, e, rfl, ?_, ?_⟩
    · rw [← value]
      cases negative <;> simp [abs_of_nonneg size]
    · rw [← value]
      cases negative <;> simp

/-- The integer part of a double without its sign is a double. -/
theorem value?_ofNat_of_floor {n : ℕ} (value : value? x = some q) (part : (n : ℤ) = ⌊|q|⌋) :
    value? (Float.ofNat n) = some (n : ℚ) := by
  by_cases small : n < 2 ^ 53
  · exact value?_ofNat small
  -- a double that is too large for this has no fraction
  have whole : (n : ℚ) = |q| := by
    obtain ⟨s, m, f, narrow, -, -, rfl⟩ := exists_units value
    have size : (0 : ℚ) ≤ m * 2 ^ f := by positivity
    rw [Binary.abs_withSign, abs_of_nonneg size] at part ⊢
    have large : (2 ^ 53 : ℚ) ≤ m * 2 ^ f := by
      have : (n : ℤ) ≤ ⌊(m * 2 ^ f : ℚ)⌋ := part.le
      have : (n : ℚ) ≤ m * 2 ^ f := by exact_mod_cast Int.le_floor.mp this
      exact le_trans (by exact_mod_cast not_lt.mp small) this
    have nonneg : 0 ≤ f := by
      by_contra! negative
      have narrow : (m : ℚ) < 2 ^ 53 := by exact_mod_cast narrow
      have less : (m * 2 ^ f : ℚ) ≤ m :=
        mul_le_of_le_one_right (by positivity) (zpow_le_one_of_nonpos₀ one_le_two negative.le)
      linarith
    obtain ⟨k, rfl⟩ := Int.eq_ofNat_of_zero_le nonneg
    have integer : (m * 2 ^ (k : ℤ) : ℚ) = (m * 2 ^ k : ℕ) := by
      rw [zpow_natCast]
      push_cast
      rfl
    rw [integer, Int.floor_natCast] at part
    rw [integer]
    exact_mod_cast part
  have same := value?_abs value
  rw [← whole] at same
  exact (nearest_ofNat n).value?_eq same

/-- The integer part of a double is a double. -/
theorem value?_truncated (value : value? x = some q) :
    value? (truncated x) = some (truncate q : ℚ) := by
  obtain ⟨negative, m, e, parts, size, rfl⟩ := exists_ofFloat_eq value
  have nonneg : (0 : ℚ) ≤ m * 2 ^ e := by positivity
  have part := Binary.wholePart_eq m e
  have whole := value?_ofNat_of_floor value (n := Binary.wholePart m e) (by rw [size, part])
  unfold truncated
  rw [parts]
  cases negative with
  | false =>
    simp only [Bool.false_eq_true, if_false]
    rw [whole, truncate_of_nonneg nonneg, ← part, Int.cast_natCast]
  | true =>
    simp only [if_true]
    rw [value?_neg, whole, truncate_neg nonneg, ← part, Int.cast_neg, Int.cast_natCast,
      Option.map_some]

/-- What is not a number is left as it is. -/
theorem truncated_of_none (none : value? x = none) : truncated x = x := by
  unfold value? at none
  unfold truncated
  cases parts : Binary.ofFloat x with
  | undefined | infinite negative => rfl
  | finite negative m e =>
    rw [parts] at none
    cases none

/-- Comparing the integer part of a double with whole numbers is comparing integers. -/
theorem truncated_within_iff {a b : Float} {low high : ℕ} (least : value? a = some (low : ℚ))
    (most : value? b = some (high : ℚ)) :
    a ≤ truncated x ∧ truncated x ≤ b ↔
      ∃ n : ℕ, low ≤ n ∧ n ≤ high ∧ (value? x).map truncate = some (n : ℤ) := by
  cases value : value? x with
  | none =>
    simp only [Option.map_none, reduceCtorEq, and_false, exists_false, iff_false]
    rintro ⟨above, below⟩
    obtain ⟨r, part⟩ := exists_value_of_le least most above below
    rw [truncated_of_none value, value] at part
    cases part
  | some q =>
    have part := value?_truncated value
    rw [le_iff least part, le_iff part most, Option.map_some]
    constructor
    · rintro ⟨above, below⟩
      have above' : (low : ℤ) ≤ truncate q := by exact_mod_cast above
      have below' : truncate q ≤ (high : ℤ) := by exact_mod_cast below
      exact ⟨(truncate q).toNat, by omega, by omega, congrArg some (by omega)⟩
    · rintro ⟨n, above, below, same⟩
      rw [Option.some.inj same]
      exact ⟨by exact_mod_cast above, by exact_mod_cast below⟩

/-- Where a double is zero, the number that it is nearest to is not a number of least units other
than zero. -/
theorem eq_zero_of_nearest {v : ℚ} {j : ℤ} (near : Nearest x v) (zero : value? x = some 0)
    (units : v = j * 2 ^ (-1074 : ℤ)) : v = 0 := by
  obtain ⟨y, least⟩ : ∃ y, value? y = some ((1 : ℕ) * 2 ^ (-1074 : ℤ) : ℚ) :=
    exists_value ⟨by decide, le_rfl, .inr rfl⟩ (by decide)
  rw [Nat.cast_one, one_mul] at least
  have opposite : value? (-y) = some (-2 ^ (-1074 : ℤ)) := by
    rw [value?_neg, least, Option.map_some]
  obtain ⟨p, given, nearest⟩ | ⟨infinite, -⟩ := near
  · obtain rfl : 0 = p := Option.some.inj (zero.symm.trans given)
    have above := nearest y _ least
    have below := nearest (-y) _ opposite
    have unit : (0 : ℚ) < 2 ^ (-1074 : ℤ) := by positivity
    generalize (2 ^ (-1074 : ℤ) : ℚ) = u at *
    rw [sub_zero] at above below
    subst units
    obtain negative | rfl | positive := lt_trichotomy j 0
    · have negative : (j : ℚ) ≤ -1 := by exact_mod_cast Int.le_sub_one_of_lt negative
      rw [abs_of_nonpos (by nlinarith), abs_of_nonpos (by nlinarith)] at below
      linarith
    · simp
    · have positive : (1 : ℚ) ≤ j := by exact_mod_cast positive
      rw [abs_of_nonneg (by nlinarith), abs_of_nonneg (by nlinarith)] at above
      linarith
  · rw [value?, infinite] at zero
    cases zero

/-- Only a zero is equal to zero. -/
theorem value?_of_beq_zero (zero : (x == 0.0) = true) : value? x = some 0 := by
  have compared : (x.toModel.unpack.compare (.zero .positive) == some .eq) = true := zero
  cases unpacked : x.toModel.unpack with
  | zero s => exact value?_of_zero unpacked
  | notANumber =>
    rw [unpacked] at compared
    cases compared
  | infinity s | finite s m e positive =>
    rw [unpacked] at compared
    cases s <;> cases compared

/-- Nothing is left of a double without its integer part exactly if it is a whole number. -/
theorem fraction_eq_zero_iff (value : value? x = some q) :
    (fraction x == 0.0) = true ↔ (truncate q : ℚ) = q := by
  have none : value? 0.0 = some 0 := value?_of_zero (s := .positive) rfl
  have near : Nearest (fraction x) (q - truncate q) := nearest_sub value (value?_truncated value)
  constructor
  · intro zero
    obtain ⟨s, n, f, -, least, -, rfl⟩ := exists_units value
    have units : Binary.withSign s (n * 2 ^ f) - truncate (Binary.withSign s (n * 2 ^ f)) =
        (s.apply (n <<< (f - -1074).toNat : ℕ) -
          truncate (Binary.withSign s (n * 2 ^ f)) * 2 ^ 1074 : ℤ) * 2 ^ (-1074 : ℤ) := by
      have one : (2 ^ 1074 * 2 ^ (-1074 : ℤ) : ℚ) = 1 := by
        rw [← zpow_natCast, ← zpow_add₀ two_ne_zero]
        rfl
      rw [Int.cast_sub, sub_mul, ← signed_eq n least, Int.cast_mul, Int.cast_pow, mul_assoc,
        Int.cast_ofNat, one, mul_one]
    exact (sub_eq_zero.mp (eq_zero_of_nearest near (value?_of_beq_zero zero) units)).symm
  · intro whole
    rw [whole, sub_self] at near
    exact (beq_iff (near.value?_eq none) none).mpr rfl

/-- An infinity less itself is undefined. -/
theorem value?_sub_self (infinite : value? x = none) : value? (x - x) = none := by
  have difference : (x - x).toModel =
      Float.Model.pack (UnpackedFloat.sub Format.binary64 x.toModel.unpack x.toModel.unpack) := rfl
  have undefined : (x - x).toModel.unpack = .notANumber := by
    rw [difference]
    cases unpacked : x.toModel.unpack with
    | notANumber => rfl
    | infinity s => cases s <;> rfl
    | zero s =>
      rw [value?_of_zero unpacked] at infinite
      cases infinite
    | finite s m e positive =>
      rw [value?_of_finite unpacked] at infinite
      cases infinite
  rw [value?, Binary.ofFloat, undefined]
  rfl

/-- Only a finite number has no fraction. -/
theorem exists_value_of_fraction (zero : (fraction x == 0.0) = true) : ∃ q, value? x = some q := by
  rw [← Option.isSome_iff_exists, ← Option.ne_none_iff_isSome]
  intro infinite
  have none := value?_of_beq_zero zero
  rw [fraction, truncated_of_none infinite, value?_sub_self infinite] at none
  cases none

/-- A double is made into a word exactly if its integer part is within the bounds of the word. -/
theorem saturated_eq {low high : ℤ} (value : value? x = some q) (above : low ≤ truncate q)
    (below : truncate q ≤ high) : saturated low high x = truncate q := by
  obtain ⟨negative, m, e, parts, -, rfl⟩ := exists_ofFloat_eq value
  have nonneg : (0 : ℚ) ≤ m * 2 ^ e := by positivity
  have part := Binary.wholePart_eq m e
  unfold saturated
  rw [parts]
  cases negative with
  | false =>
    simp only [Bool.false_eq_true, if_false] at above below ⊢
    rw [truncate_of_nonneg nonneg] at above below ⊢
    omega
  | true =>
    simp only [if_true] at above below ⊢
    rw [truncate_neg nonneg] at above below ⊢
    omega

/-- A whole number that fits into a word is made into that word. -/
theorem unsignedWord_of_value? {n : ℕ} (value : value? x = some (n : ℚ)) (small : n < 2 ^ 53) :
    unsignedWord x = n := by
  have part : truncate (n : ℚ) = n := by exact_mod_cast truncate_intCast n
  rw [unsignedWord, saturated_eq value (by omega) (by omega), part, Int.toNat_natCast]

/-- An integer part that fits into a word is made into that word. -/
theorem unsignedWord_truncated {n : ℕ} (part : (value? x).map truncate = some (n : ℤ))
    (small : n < 2 ^ 53) : unsignedWord (truncated x) = n := by
  obtain ⟨q, value, whole⟩ := Option.map_eq_some_iff.mp part
  refine unsignedWord_of_value? ?_ small
  rw [value?_truncated value, whole, Int.cast_natCast]

end NumberedBasic.Number
