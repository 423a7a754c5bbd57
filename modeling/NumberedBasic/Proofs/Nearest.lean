import NumberedBasic.Proofs.Rounding

/-!
# The nearest double

Where a number is not a double, operations round to one that is as near as any other
(`Number.Nearest`). This is what products, quotients and differences give, and the double of a
decimal (`Decimal.toFloat_nearest`). A number that is a double is therefore given exactly
(`Number.Nearest.value?_eq`): so is every whole number below `2 ^ 53` (`Number.value?_ofInt`).
-/

set_option autoImplicit false

namespace NumberedBasic

namespace Number

open Float.Model Float.Model.UnpackedFloat

/-- A double is as near to a number as any other double, or it is an infinity and the number is
half a unit or more beyond the largest double. -/
def Nearest (x : Float) (v : ℚ) : Prop :=
  (∃ q, value? x = some q ∧ ∀ y r, value? y = some r → |v - q| ≤ |v - r|) ∨
    Binary.ofFloat x = .infinite (decide (v < 0)) ∧ 2 ^ 1024 - 2 ^ 970 ≤ |v|

/-- A finite double is a number of units. -/
theorem exists_units {y : Float} {r : ℚ} (value : value? y = some r) :
    ∃ s, ∃ n : ℕ, ∃ f : ℤ, n < 2 ^ 53 ∧ -1074 ≤ f ∧ f ≤ 971 ∧
      r = Binary.withSign s (n * 2 ^ f) := by
  by_cases zero : r = 0
  · exact ⟨.positive, 0, 0, by decide, by decide, by decide, by simp [zero]⟩
  · obtain ⟨s, m, e, -, -, canonical, most, rfl⟩ := exists_parts value zero
    exact ⟨s, m, e, canonical.small, canonical.least, most, rfl⟩

/-- A double that is unpacked as a sign, a significand and an exponent is the number they make. -/
theorem value?_of_assemble {x : Float} {s : Sign} {m : ℕ} {e : ℤ}
    (parts : x.toModel.unpack = Binary.assemble s m e) :
    value? x = some (Binary.withSign s (m * 2 ^ e)) := by
  by_cases zero : m = 0
  · rw [Binary.assemble_of_eq_zero zero] at parts
    rw [value?_of_zero parts, zero, Nat.cast_zero, zero_mul]
    cases s <;> simp
  · rw [Binary.assemble_of_pos (Nat.pos_of_ne_zero zero)] at parts
    exact value?_of_finite parts

/-- A number with the parts of a double is the value of a double. -/
theorem exists_value {m : ℕ} {e : ℤ} (canonical : Binary.Canonical m e) (most : e ≤ 971) :
    ∃ x, value? x = some (m * 2 ^ e : ℚ) :=
  ⟨⟨Float.Model.pack (Binary.assemble .positive m e)⟩,
    value?_of_assemble (canonical.unpack_pack most)⟩

/-- A double is nearest to its own value. -/
theorem nearest_of_value? {x : Float} {v : ℚ} (value : value? x = some v) : Nearest x v :=
  .inl ⟨v, value, fun _ _ _ => by simp⟩

/-- The largest double is a unit below the power of two that would be next. -/
theorem largest_eq : ((2 ^ 53 - 1 : ℕ) * 2 ^ (971 : ℤ) : ℚ) = 2 ^ 1024 - 2 * 2 ^ 970 := by
  have limit : (2 ^ 1024 : ℚ) = 2 ^ 54 * 2 ^ 970 := pow_add 2 54 970
  have last : (2 ^ (971 : ℤ) : ℚ) = 2 ^ 970 * 2 := by
    rw [show (971 : ℤ) = (970 + 1 : ℕ) from rfl, zpow_natCast, pow_succ]
  rw [limit, last]
  generalize (2 ^ 970 : ℚ) = half
  norm_num
  ring

/-- No double is as large as the numbers that are rounded to infinity. -/
theorem abs_lt_of_value? {y : Float} {r : ℚ} (value : value? y = some r) :
    |r| < 2 ^ 1024 - 2 ^ 970 := by
  obtain ⟨s, n, f, small, -, most, rfl⟩ := exists_units value
  have size : (0 : ℚ) ≤ n * 2 ^ f := by positivity
  have unit : (0 : ℚ) < 2 ^ 970 := by positivity
  have small : (n : ℚ) ≤ (2 ^ 53 - 1 : ℕ) := by exact_mod_cast Nat.le_sub_one_of_lt small
  have below : (n * 2 ^ f : ℚ) ≤ 2 ^ 1024 - 2 * 2 ^ 970 := by
    calc (n * 2 ^ f : ℚ) ≤ (2 ^ 53 - 1 : ℕ) * 2 ^ f :=
        mul_le_mul_of_nonneg_right small (by positivity)
      _ ≤ (2 ^ 53 - 1 : ℕ) * 2 ^ (971 : ℤ) :=
        mul_le_mul_of_nonneg_left (zpow_le_zpow_right₀ one_le_two most) (by positivity)
      _ = 2 ^ 1024 - 2 * 2 ^ 970 := largest_eq
  rw [Binary.abs_withSign, abs_of_nonneg size]
  generalize (2 ^ 1024 : ℚ) = limit at *
  generalize (2 ^ 970 : ℚ) = half at *
  linarith

/-- The nearest double to the value of a double has that value. -/
theorem Nearest.value?_eq {x y : Float} {v : ℚ} (near : Nearest x v) (value : value? y = some v) :
    value? x = some v := by
  obtain ⟨q, given, nearest⟩ | ⟨-, far⟩ := near
  · have none := nearest y v value
    rw [sub_self, abs_zero, abs_nonpos_iff, sub_eq_zero] at none
    rw [given, none]
  · exact absurd (abs_lt_of_value? value) (not_lt.mpr far)

/-- A double that is nearest to a number is not undefined. -/
theorem Nearest.defined {x : Float} {v : ℚ} (near : Nearest x v) : ¬IsUndefined x := by
  intro undefined
  obtain ⟨q, given, -⟩ | ⟨infinite, -⟩ := near
  · rw [value?, undefined] at given
    cases given
  · cases undefined.symm.trans infinite

/-- The opposite of an infinity is the other one. -/
theorem ofFloat_neg_of_infinite {x : Float} {negative : Bool}
    (infinite : Binary.ofFloat x = .infinite negative) :
    Binary.ofFloat (-x) = .infinite (!negative) := by
  unfold Binary.ofFloat at infinite ⊢
  rw [unpack_neg]
  generalize x.toModel.unpack = unpacked at infinite
  cases unpacked with
  | notANumber | zero s | finite s m e positive => cases infinite
  | infinity s =>
    cases infinite
    cases s <;> rfl

/-- The opposite of the nearest double is nearest to the opposite number. -/
theorem Nearest.neg {x : Float} {v : ℚ} (near : Nearest x v) : Nearest (-x) (-v) := by
  obtain ⟨q, given, nearest⟩ | ⟨infinite, far⟩ := near
  · refine .inl ⟨-q, by rw [value?_neg, given, Option.map_some], fun y r value => ?_⟩
    have best := nearest (-y) (-r) (by rw [value?_neg, value, Option.map_some])
    have left : |-v - -q| = |v - q| := by rw [neg_sub_neg, abs_sub_comm]
    have right : |-v - r| = |v - -r| := by
      rw [← abs_neg, neg_sub, sub_neg_eq_add, sub_neg_eq_add, add_comm]
    rwa [left, right]
  · refine .inr ⟨?_, by rwa [abs_neg]⟩
    have nonzero : v ≠ 0 := by
      rintro rfl
      rw [abs_zero] at far
      exact absurd (pow_lt_pow_right₀ one_lt_two (by decide)) (not_lt.mpr (sub_nonpos.mp far))
    rw [ofFloat_neg_of_infinite infinite]
    obtain negative | positive := lt_or_gt_of_ne nonzero
    · rw [decide_eq_true negative, decide_eq_false (by linarith)]
      rfl
    · rw [decide_eq_false (by linarith), decide_eq_true (by linarith)]
      rfl

/-- Being nearest is a matter of what a double is unpacked as. -/
theorem Nearest.congr {x y : Float} {v : ℚ} (near : Nearest y v)
    (same : x.toModel.unpack = y.toModel.unpack) : Nearest x v := by
  have parts : Binary.ofFloat x = Binary.ofFloat y := by
    rw [Binary.ofFloat, Binary.ofFloat, same]
  have value : value? x = value? y := congrArg Binary.value? parts
  unfold Nearest
  rw [parts, value]
  exact near

/-- A number that is rounded and packed gives the nearest double. -/
theorem nearest_of_round {x : Float} {m : ℕ} {e : ℤ} {a : Accuracy} {v : ℚ}
    (fine : e ≤ Binary.unit m e)
    (stands : Binary.Represents (ExtendedMantissa.ofMantissaAndAccuracy m a) (v / 2 ^ e))
    (packed : x.toModel = Float.Model.pack (roundWithAccuracy Format.binary64 .positive m e a)) :
    Nearest x v := by
  have size : (0 : ℚ) < 2 ^ e := by positivity
  have starts : (m * 2 ^ e : ℚ) ≤ v := by
    have := stands.bounds.1
    rwa [Binary.mantissa_ofMantissaAndAccuracy, le_div_iff₀ size] at this
  have nonneg : 0 ≤ v := le_trans (by positivity) starts
  obtain ⟨m', e', rounded, canonical, coarse, near⟩ :=
    Binary.exists_roundWithAccuracy fine stands
  -- No other significand is nearer. What differs below is only whether the one that was found still
  -- has an exponent in range.
  have best (n : ℕ) (f : ℤ) := Binary.abs_sub_le_of_unit (n := n) (f := f) starts fine coarse near
  rw [rounded] at packed
  by_cases most : e' ≤ 971
  · left
    have parts : x.toModel.unpack = Binary.assemble .positive m' e' := by
      rw [packed, canonical.unpack_pack most]
    refine ⟨_, value?_of_assemble parts, fun y r value => ?_⟩
    obtain ⟨s, n, f, small, least, -, rfl⟩ := exists_units value
    cases s with
    | positive => exact best n f small least
    | negative =>
      have zero := best 0 f (by decide) least
      rw [Nat.cast_zero, zero_mul, sub_zero, abs_of_nonneg nonneg] at zero
      have : (0 : ℚ) ≤ n * 2 ^ f := by positivity
      rw [Binary.withSign_negative, sub_neg_eq_add,
        abs_of_nonneg (by positivity : 0 ≤ v + n * 2 ^ f), Binary.withSign_positive]
      linarith
  · right
    have large : 971 < e' := not_le.mp most
    have full : 2 ^ 52 ≤ m' := canonical.full.resolve_right (by omega)
    have positive : 0 < m' := lt_of_lt_of_le (by decide) full
    have infinite : x.toModel.unpack = .infinity .positive := by
      rw [packed, Binary.assemble_of_pos positive, Binary.unpack_pack_of_gt _ large]
    refine ⟨by rw [Binary.ofFloat, infinite, decide_eq_false nonneg.not_gt]; rfl, ?_⟩
    have far : (2 ^ 1024 : ℚ) ≤ m' * 2 ^ e' := by
      have full : (2 ^ 52 : ℚ) ≤ m' := by exact_mod_cast full
      calc (2 ^ 1024 : ℚ) = 2 ^ 52 * 2 ^ (972 : ℤ) := by
            rw [show (972 : ℤ) = (972 : ℕ) from rfl, zpow_natCast, ← pow_add]
        _ ≤ m' * 2 ^ (972 : ℤ) := mul_le_mul_of_nonneg_right full (by positivity)
        _ ≤ m' * 2 ^ e' :=
          mul_le_mul_of_nonneg_left (zpow_le_zpow_right₀ one_le_two (by omega)) (by positivity)
    have top := best (2 ^ 53 - 1) 971 (by decide) (by decide)
    rw [largest_eq] at top
    have unit : (0 : ℚ) < 2 ^ 970 := by positivity
    rw [abs_of_nonneg nonneg]
    generalize (2 ^ 1024 : ℚ) = limit at *
    generalize (2 ^ 970 : ℚ) = half at *
    by_contra! below
    have left := neg_le_abs (v - m' * 2 ^ e')
    have right : |v - (limit - 2 * half)| < limit - v :=
      abs_lt.mpr ⟨by linarith, by linarith⟩
    linarith

/-- A number that is less than half the least double is nearest to zero. -/
theorem nearest_of_tiny {x : Float} {v : ℚ} (zero : value? x = some 0) (nonneg : 0 ≤ v)
    (tiny : v ≤ 2 ^ (-1075 : ℤ)) : Nearest x v := by
  refine .inl ⟨0, zero, fun y r value => ?_⟩
  rw [sub_zero, abs_of_nonneg nonneg]
  obtain ⟨s, n, f, -, least, -, rfl⟩ := exists_units value
  obtain rfl | some := Nat.eq_zero_or_pos n
  · cases s <;> simp [abs_of_nonneg nonneg]
  have large : 2 * 2 ^ (-1075 : ℤ) ≤ (n * 2 ^ f : ℚ) := by
    have one : (1 : ℚ) ≤ n := by exact_mod_cast some
    calc (2 * 2 ^ (-1075 : ℤ) : ℚ) = 2 ^ (-1075 + 1 : ℤ) := by
          rw [zpow_add_one₀ two_ne_zero, mul_comm]
      _ ≤ 2 ^ f := zpow_le_zpow_right₀ one_le_two (by omega)
      _ ≤ n * 2 ^ f := le_mul_of_one_le_left (by positivity) one
  cases s with
  | positive =>
    rw [Binary.withSign_positive, abs_sub_comm]
    exact le_trans (by linarith) (le_abs_self _)
  | negative =>
    rw [Binary.withSign_negative, sub_neg_eq_add]
    exact le_trans (by linarith) (le_abs_self _)

/-- A significand that is packed with a minus sign gives the opposite double. -/
theorem unpack_pack_negative {m : ℕ} {e : ℤ} (canonical : Binary.Canonical m e) :
    (Float.Model.pack (Binary.assemble .negative m e)).unpack =
      (Float.Model.pack (Binary.assemble .positive m e)).unpack.neg := by
  by_cases most : e ≤ 971
  · rw [canonical.unpack_pack most, canonical.unpack_pack most]
    by_cases nothing : m = 0
    · rw [Binary.assemble_of_eq_zero nothing, Binary.assemble_of_eq_zero nothing]
      rfl
    · rw [Binary.assemble_of_pos (Nat.pos_of_ne_zero nothing),
        Binary.assemble_of_pos (Nat.pos_of_ne_zero nothing)]
      rfl
  · have large : 971 < e := not_le.mp most
    have full : 2 ^ 52 ≤ m := canonical.full.resolve_right (by omega)
    have positive : 0 < m := lt_of_lt_of_le (by decide) full
    rw [Binary.assemble_of_pos positive, Binary.assemble_of_pos positive,
      Binary.unpack_pack_of_gt _ large, Binary.unpack_pack_of_gt _ large]
    rfl

/-- Units of a power of two are rounded to the nearest double. -/
theorem nearest_round {x : Float} {s : Sign} {m : ℕ} {e : ℤ} (positive : 0 < m)
    (packed : x.toModel = Float.Model.pack (round Format.binary64 s m e)) :
    Nearest x (Binary.withSign s (m * 2 ^ e)) := by
  let k := (e - Binary.unit m e).toNat
  have shifted : ((m <<< k : ℕ) : ℚ) = m * 2 ^ e / 2 ^ (e - k) := by
    rw [Nat.shiftLeft_eq, zpow_sub₀ two_ne_zero, zpow_natCast]
    push_cast
    field_simp
  have fine : e - k ≤ Binary.unit (m <<< k) (e - k) := by
    have width : (m <<< k).log2 = m.log2 + k := by
      rw [Nat.log2_eq_iff (by rw [Nat.shiftLeft_eq]; positivity), Nat.shiftLeft_eq, pow_add,
        add_right_comm, pow_add]
      exact ⟨Nat.mul_le_mul_right _ (Nat.log2_self_le positive.ne'),
        Nat.mul_lt_mul_of_pos_right Nat.lt_log2_self (by positivity)⟩
    unfold Binary.unit
    rw [width]
    simp only [k, Binary.unit]
    omega
  have stands : Binary.Represents (ExtendedMantissa.ofMantissaAndAccuracy (m <<< k) .exact)
      (m * 2 ^ e / 2 ^ (e - k)) := by
    rw [← shifted]
    exact Binary.represents_exact _
  have rounds (s : Sign) : round Format.binary64 s m e =
      roundWithAccuracy Format.binary64 s (m <<< k) (e - k) .exact := by
    simp only [UnpackedFloat.round, Binary.targetExponent_eq, decreaseExponent]
    rfl
  cases s with
  | positive => exact nearest_of_round fine stands (packed.trans (congrArg _ (rounds _)))
  | negative =>
    obtain ⟨m', e', rounded, canonical, -, -⟩ := Binary.exists_roundWithAccuracy fine stands
    have near : Nearest ⟨Float.Model.pack
        (roundWithAccuracy Format.binary64 .positive (m <<< k) (e - k) .exact)⟩ (m * 2 ^ e) :=
      nearest_of_round fine stands rfl
    refine near.neg.congr ?_
    rw [unpack_neg, packed, rounds, rounded, rounded]
    exact unpack_pack_negative canonical

/-- A signed number of units is rounded to the nearest double. -/
theorem nearest_normalize {x : Float} {k e : ℤ}
    (packed : x.toModel =
      Float.Model.pack (UnpackedFloat.normalize Format.binary64 k e .positive)) :
    Nearest x (k * 2 ^ e) := by
  obtain negative | rfl | positive := lt_trichotomy k 0
  · rw [UnpackedFloat.normalize, Int.compare_eq_lt.mpr negative] at packed
    have near := nearest_round (by omega) packed
    have value : (((-k).toNat : ℕ) : ℚ) = -k := by
      exact_mod_cast Int.toNat_of_nonneg (by omega)
    rwa [value, Binary.withSign_negative, neg_mul, neg_neg] at near
  · refine nearest_of_value? ?_
    rw [Int.cast_zero, zero_mul]
    refine value?_of_zero (s := .positive) ?_
    rw [packed, UnpackedFloat.normalize, Int.compare_eq_eq.mpr rfl]
    exact Binary.unpack_pack_zero .positive
  · rw [UnpackedFloat.normalize, Int.compare_eq_gt.mpr positive] at packed
    have near := nearest_round (by omega) packed
    have value : ((k.toNat : ℕ) : ℚ) = k := by
      exact_mod_cast Int.toNat_of_nonneg positive.le
    rwa [value, Binary.withSign_positive] at near

section Arithmetic

variable {x : Float} {m₁ m₂ : ℕ} {e₁ e₂ : ℤ} {positive₁ : 0 < m₁} {positive₂ : 0 < m₂}

/-- Products are rounded to the nearest double. -/
theorem nearest_mul (fine : e₁ + e₂ ≤ Binary.unit (m₁ * m₂) (e₁ + e₂))
    (packed : x.toModel = Float.Model.pack (UnpackedFloat.mul Format.binary64
      (.finite .positive m₁ e₁ positive₁) (.finite .positive m₂ e₂ positive₂))) :
    Nearest x (m₁ * 2 ^ e₁ * (m₂ * 2 ^ e₂)) := by
  have same : (m₁ * 2 ^ e₁ * (m₂ * 2 ^ e₂) / 2 ^ (e₁ + e₂) : ℚ) = (m₁ * m₂ : ℕ) := by
    rw [zpow_add₀ two_ne_zero, div_eq_iff (by positivity)]
    push_cast
    ring
  refine nearest_of_round (a := .exact) fine ?_ packed
  rw [same]
  exact Binary.represents_exact _

/-- Quotients are rounded to the nearest double. -/
theorem nearest_div
    (packed : x.toModel = Float.Model.pack (UnpackedFloat.div Format.binary64
      (.finite .positive m₁ e₁ positive₁) (.finite .positive m₂ e₂ positive₂))) :
    Nearest x (m₁ * 2 ^ e₁ / (m₂ * 2 ^ e₂)) := by
  let target : ℤ := min (e₁ - e₂) (max (m₁.log2 + e₁ - (m₂.log2 + e₂) - 53) (-1074))
  have low₁ := Nat.log2_self_le positive₁.ne'
  have high₂ := Nat.lt_log2_self (n := m₂)
  have target_eq : min (e₁ - e₂) (Format.binary64.targetExponent
      (totalExponent m₁ e₁ - totalExponent m₂ e₂)) = target := by
    have bits : Format.binary64.mantissaBits = 53 := rfl
    simp only [Format.targetExponent, totalExponent, bits, Format.minExponent, target]
    congr 2
    omega
  have shifted : ((m₁ <<< (e₁ - e₂ - target).toNat : ℕ) : ℚ) / m₂ =
      m₁ * 2 ^ e₁ / (m₂ * 2 ^ e₂) / 2 ^ target := by
    have exponent : ((e₁ - e₂ - target).toNat : ℤ) = e₁ - e₂ - target := by omega
    rw [Nat.shiftLeft_eq]
    push_cast
    rw [← zpow_natCast, exponent, zpow_sub₀ two_ne_zero, zpow_sub₀ two_ne_zero]
    field_simp
  refine nearest_of_round (m := m₁ <<< (e₁ - e₂ - target).toNat / m₂) (e := target)
    (a := accuracyOfFraction (m₁ <<< (e₁ - e₂ - target).toNat % m₂) m₂) ?_ ?_ ?_
  · -- the quotient has full width, or the least unit
    by_cases least : target ≤ -1074
    · exact Binary.le_unit_of_le least
    have amount : m₂.log2 + 53 ≤ m₁.log2 + (e₁ - e₂ - target).toNat := by
      simp only [target] at least ⊢
      omega
    have wide : 2 ^ 52 ≤ m₁ <<< (e₁ - e₂ - target).toNat / m₂ := by
      rw [Nat.le_div_iff_mul_le positive₂, Nat.shiftLeft_eq]
      calc 2 ^ 52 * m₂ ≤ 2 ^ 52 * 2 ^ (m₂.log2 + 1) := Nat.mul_le_mul_left _ high₂.le
        _ = 2 ^ (m₂.log2 + 53) := by rw [← pow_add]; congr 1; omega
        _ ≤ 2 ^ (m₁.log2 + (e₁ - e₂ - target).toNat) := Nat.pow_le_pow_right two_pos amount
        _ ≤ m₁ * 2 ^ (e₁ - e₂ - target).toNat := by
          rw [pow_add]
          exact Nat.mul_le_mul_right _ low₁
    exact Binary.le_unit_of_wide wide
  · rw [← shifted]
    exact Binary.represents_div _ positive₂
  · rw [packed, ← target_eq]
    rfl

/-- A finite double is a signed number of units of any power of two that is small enough. -/
theorem signed_eq {s : Sign} (m : ℕ) {e t : ℤ} (fine : t ≤ e) :
    Binary.withSign s (m * 2 ^ e) = (s.apply (m <<< (e - t).toNat : ℕ) : ℤ) * 2 ^ t := by
  have size : (m * 2 ^ e : ℚ) = (m <<< (e - t).toNat : ℕ) * 2 ^ t := by
    rw [Nat.shiftLeft_eq]
    push_cast
    rw [mul_assoc, ← zpow_natCast, ← zpow_add₀ two_ne_zero, Int.toNat_of_nonneg (by omega),
      sub_add_cancel]
  rw [size]
  cases s with
  | positive => rw [Binary.withSign_positive, Sign.apply, Int.cast_natCast]
  | negative => rw [Binary.withSign_negative, Sign.apply, Int.cast_neg, Int.cast_natCast, neg_mul]

/-- Differences are rounded to the nearest double. -/
theorem nearest_sub {x y : Float} {q r : ℚ} (value : value? x = some q)
    (value' : value? y = some r) : Nearest (x - y) (q - r) := by
  have difference : (x - y).toModel =
      Float.Model.pack (UnpackedFloat.sub Format.binary64 x.toModel.unpack y.toModel.unpack) := rfl
  obtain ⟨s, zero⟩ | ⟨s, m, e, positive, finite⟩ := of_value? value
  · rw [value?_of_zero zero, Option.some.injEq] at value
    rw [zero] at difference
    rw [← value, zero_sub]
    obtain ⟨s', zero'⟩ | ⟨s', m', e', positive', finite'⟩ := of_value? value'
    · rw [value?_of_zero zero', Option.some.injEq] at value'
      have none : ∃ t, (x - y).toModel.unpack = .zero t := by
        rw [difference, zero']
        cases s <;> cases s' <;> exact ⟨_, rfl⟩
      obtain ⟨t, none⟩ := none
      rw [← value', neg_zero]
      exact nearest_of_value? (value?_of_zero none)
    · refine (nearest_of_value? value').neg.congr ?_
      rw [unpack_neg, difference, finite']
      exact unpack_pack_of_finite finite' _
  · rw [finite] at difference
    obtain ⟨s', zero'⟩ | ⟨s', m', e', positive', finite'⟩ := of_value? value'
    · rw [value?_of_zero zero', Option.some.injEq] at value'
      rw [← value', sub_zero]
      refine (nearest_of_value? value).congr ?_
      rw [difference, zero', finite]
      exact unpack_pack_of_finite finite _
    · rw [value?_of_finite finite, Option.some.injEq] at value
      rw [value?_of_finite finite', Option.some.injEq] at value'
      rw [finite'] at difference
      rw [← value, ← value', signed_eq m (min_le_left e e'), signed_eq m' (min_le_right e e'),
        ← sub_mul, ← Int.cast_sub]
      exact nearest_normalize difference

/-- A positive double has a plus sign. -/
theorem exists_parts_of_pos {x : Float} {q : ℚ} (value : value? x = some q) (positive : 0 < q) :
    ∃ m e positive, x.toModel.unpack = .finite .positive m e positive ∧ Binary.Canonical m e ∧
      q = m * 2 ^ e := by
  obtain ⟨s, m, e, some, finite, canonical, -, rfl⟩ := exists_parts value positive.ne'
  have size : (0 : ℚ) < m * 2 ^ e := by positivity
  cases s with
  | positive => exact ⟨m, e, some, finite, canonical, rfl⟩
  | negative => exact absurd positive (neg_neg_of_pos size).not_gt

/-- The doubles of value zero are the two zeros. -/
theorem exists_zero {x : Float} (value : value? x = some 0) : ∃ s, x.toModel.unpack = .zero s := by
  obtain ⟨s, zero⟩ | ⟨s, m, e, positive, finite⟩ := of_value? value
  · exact ⟨s, zero⟩
  · have size : (0 : ℚ) < m * 2 ^ e := by positivity
    rw [value?_of_finite finite, Option.some.injEq] at value
    cases s with
    | positive => exact absurd value size.ne'
    | negative => exact absurd (neg_eq_zero.mp value) size.ne'

section Products

variable {y : Float} {q r : ℚ} (value : value? x = some q) (value' : value? y = some r)
  (nonneg : 0 ≤ q) (positive : 0 < r)

include value value' nonneg positive

/-- Products of doubles are rounded to the nearest double. -/
theorem nearest_mul_of_nonneg : Nearest (x * y) (q * r) := by
  obtain ⟨m', e', some', finite', canonical', rfl⟩ := exists_parts_of_pos value' positive
  obtain rfl | more := nonneg.eq_or_lt
  · obtain ⟨s, zero⟩ := exists_zero value
    have none : UnpackedFloat.mul Format.binary64 x.toModel.unpack y.toModel.unpack =
        .zero (s * .positive) := by rw [zero, finite']; rfl
    rw [zero_mul]
    refine nearest_of_value? (value?_of_zero (s := s * .positive) ?_)
    exact (congrArg (fun u => (Float.Model.pack u).unpack) none).trans (Binary.unpack_pack_zero _)
  · obtain ⟨m, e, some, finite, canonical, rfl⟩ := exists_parts_of_pos value more
    have packed := congrArg₂ (UnpackedFloat.mul Format.binary64) finite finite'
    refine nearest_mul ?_ (congrArg Float.Model.pack packed)
    obtain full | least := canonical.full
    · exact Binary.le_unit_of_wide (full.trans (Nat.le_mul_of_pos_right m some'))
    obtain full' | least' := canonical'.full
    · exact Binary.le_unit_of_wide (full'.trans (Nat.le_mul_of_pos_left m' some))
    · exact Binary.le_unit_of_le (by omega)

/-- Quotients of doubles are rounded to the nearest double. -/
theorem nearest_div_of_nonneg : Nearest (x / y) (q / r) := by
  obtain ⟨m', e', some', finite', -, rfl⟩ := exists_parts_of_pos value' positive
  obtain rfl | more := nonneg.eq_or_lt
  · obtain ⟨s, zero⟩ := exists_zero value
    have none : UnpackedFloat.div Format.binary64 x.toModel.unpack y.toModel.unpack =
        .zero (s / .positive) := by rw [zero, finite']; rfl
    rw [zero_div]
    refine nearest_of_value? (value?_of_zero (s := s / .positive) ?_)
    exact (congrArg (fun u => (Float.Model.pack u).unpack) none).trans (Binary.unpack_pack_zero _)
  · obtain ⟨m, e, some, finite, -, rfl⟩ := exists_parts_of_pos value more
    have packed := congrArg₂ (UnpackedFloat.div Format.binary64) finite finite'
    exact nearest_div (congrArg Float.Model.pack packed)

end Products

end Arithmetic

/-! ## Reading decimals -/

/-- Every whole number below `2 ^ 53` is the value of a double: shifted to full width, it has the
parts of one. -/
theorem exists_value_natCast {n : ℕ} (small : n < 2 ^ 53) : ∃ x, value? x = some (n : ℚ) := by
  obtain rfl | some := Nat.eq_zero_or_pos n
  · exact ⟨0.0, value?_of_zero (s := .positive) rfl⟩
  have log2_le : n.log2 ≤ 52 := Nat.le_of_lt_succ ((Nat.log2_lt some.ne').mpr small)
  have width : n.log2 + (52 - n.log2) = 52 := by omega
  have canonical : Binary.Canonical (n * 2 ^ (52 - n.log2)) (n.log2 - 52) := by
    refine ⟨?_, by omega, .inl ?_⟩
    · calc n * 2 ^ (52 - n.log2) < 2 ^ (n.log2 + 1) * 2 ^ (52 - n.log2) :=
            Nat.mul_lt_mul_of_pos_right Nat.lt_log2_self (by positivity)
        _ = 2 ^ 53 := by rw [← pow_add, add_right_comm, width]
    · calc 2 ^ 52 = 2 ^ n.log2 * 2 ^ (52 - n.log2) := by rw [← pow_add, width]
        _ ≤ n * 2 ^ (52 - n.log2) := Nat.mul_le_mul_right _ (Nat.log2_self_le some.ne')
  have value : ((n * 2 ^ (52 - n.log2) : ℕ) * 2 ^ (n.log2 - 52 : ℤ) : ℚ) = n := by
    have exponent : (n.log2 : ℤ) - 52 = -((52 - n.log2 : ℕ) : ℤ) := by omega
    rw [exponent, zpow_neg, zpow_natCast]
    push_cast
    rw [mul_inv_cancel_right₀ (by positivity)]
  rw [← value]
  exact exists_value canonical (by omega)

/-- A word below `2 ^ 53` is made into a double exactly. -/
theorem value?_toFloat {n : ℕ} (small : n < 2 ^ 53) :
    value? n.toUInt64.toFloat = some (n : ℚ) := by
  have word : n.toUInt64.toNat = n := by
    rw [Nat.toUInt64_eq, UInt64.toNat_ofNat']
    exact Nat.mod_eq_of_lt (by omega)
  have packed : n.toUInt64.toFloat.toModel =
      Float.Model.pack (UnpackedFloat.normalize Format.binary64 n 0 .positive) := by
    show Float.Model.pack (UnpackedFloat.ofInt _ (n.toUInt64.toNat : ℤ)) = _
    rw [word]
    rfl
  have near := nearest_normalize packed
  rw [zpow_zero, mul_one, Int.cast_natCast] at near
  obtain ⟨x, value⟩ := exists_value_natCast small
  exact near.value?_eq value

/-- The powers of ten that are kept in a table are exact. -/
theorem value?_powersOfTen : ∀ i : Fin Float.exactlyRepresentablePowersOfTen.size,
    value? Float.exactlyRepresentablePowersOfTen[i] = some (10 ^ (i : ℕ)) := by
  decide +kernel

/-- A number that is at least twice the largest double is nearest to infinity. -/
theorem nearest_of_huge {x : Float} {v : ℚ} (infinite : x.toModel.unpack = .infinity .positive)
    (huge : 2 ^ 1024 ≤ v) : Nearest x v := by
  have nonneg : 0 ≤ v := le_trans (by positivity) huge
  refine .inr ⟨by rw [Binary.ofFloat, infinite, decide_eq_false nonneg.not_gt]; rfl, ?_⟩
  rw [abs_of_nonneg nonneg]
  exact (sub_le_self _ (by positivity)).trans huge

/-- Digits with a power of ten that is too small by far are below half of the least double. -/
theorem le_of_small {m : ℕ} {e : ℤ} (small : e < -(2048 + m.log2 : ℤ)) :
    (m * 10 ^ e : ℚ) ≤ 2 ^ (-1075 : ℤ) := by
  have bound : (m : ℚ) ≤ 2 ^ (m.log2 + 1 : ℤ) := by
    exact_mod_cast (Nat.lt_log2_self (n := m)).le
  have power : (10 ^ e : ℚ) ≤ 2 ^ e := by
    obtain ⟨k, rfl⟩ : ∃ k : ℕ, e = -k := ⟨e.natAbs, by omega⟩
    rw [zpow_neg, zpow_neg, zpow_natCast, zpow_natCast]
    exact inv_anti₀ (by positivity) (pow_le_pow_left₀ zero_le_two (by norm_num) k)
  calc (m * 10 ^ e : ℚ) ≤ 2 ^ (m.log2 + 1 : ℤ) * 2 ^ e := by gcongr
    _ = 2 ^ (m.log2 + 1 + e : ℤ) := (zpow_add₀ two_ne_zero _ _).symm
    _ ≤ 2 ^ (-1075 : ℤ) := zpow_le_zpow_right₀ one_le_two (by omega)

section Scientific

variable {x : Float} {m : ℕ} {e : ℤ} (positive : 0 < m)

include positive

/-- Digits with a power of ten that is too large by far are read as an infinity. -/
theorem ofScientific_of_large (large : 2048 < e) :
    UnpackedFloat.ofScientific Format.binary64 m e = .infinity .positive :=
  (dif_neg positive.ne').trans (if_pos large)

/-- Digits with a power of ten that is too small by far are read as a zero. -/
theorem ofScientific_of_small (low : e ≤ 2048) (small : e < -(2048 + m.log2 : ℤ)) :
    UnpackedFloat.ofScientific Format.binary64 m e = .zero .positive :=
  (dif_neg positive.ne').trans ((if_neg low.not_gt).trans (if_pos small))

/-- Digits before the point are multiplied by the power of ten, with room for the rounding. -/
theorem ofScientific_of_nonneg (low : e ≤ 2048) (high : -(2048 + m.log2 : ℤ) ≤ e)
    (nonneg : 0 ≤ e) :
    ∃ some ten, UnpackedFloat.ofScientific Format.binary64 m e =
      UnpackedFloat.mul Format.binary64 (.finite .positive (m <<< 53) (-53) some)
        (.finite .positive (10 ^ e.toNat) 0 ten) :=
  ⟨_, _, (dif_neg positive.ne').trans
    ((if_neg low.not_gt).trans ((if_neg high.not_gt).trans (if_pos nonneg)))⟩

/-- Digits behind the point are divided by the power of ten. -/
theorem ofScientific_of_neg (low : e ≤ 2048) (high : -(2048 + m.log2 : ℤ) ≤ e)
    (negative : e < 0) :
    ∃ some ten, UnpackedFloat.ofScientific Format.binary64 m e =
      UnpackedFloat.div Format.binary64 (.finite .positive m 0 some)
        (.finite .positive (10 ^ (-e).toNat) 0 ten) :=
  ⟨_, _, (dif_neg positive.ne').trans
    ((if_neg low.not_gt).trans ((if_neg high.not_gt).trans (if_neg negative.not_ge)))⟩

/-- Powers of ten beyond 2048 are beyond all doubles. -/
theorem le_of_large (large : 2048 < e) : (2 ^ 1024 : ℚ) ≤ m * 10 ^ e := by
  have one : (1 : ℚ) ≤ m := by exact_mod_cast positive
  calc (2 ^ 1024 : ℚ) ≤ 2 ^ e := by
        rw [← zpow_natCast]
        exact zpow_le_zpow_right₀ one_le_two (by push_cast; omega)
    _ ≤ 10 ^ e := zpow_le_zpow_left₀ (by omega) (by norm_num) (by norm_num)
    _ ≤ m * 10 ^ e := le_mul_of_one_le_left (by positivity) one

/-- Digits before the point are read as the nearest double. -/
theorem nearest_of_digits_mul {k : ℕ} {some : 0 < m <<< 53} {ten : 0 < 10 ^ k}
    (packed : x.toModel = Float.Model.pack (UnpackedFloat.mul Format.binary64
      (.finite .positive (m <<< 53) (-53) some) (.finite .positive (10 ^ k) 0 ten))) :
    Nearest x (m * 10 ^ k) := by
  have wide : 2 ^ 52 ≤ m <<< 53 * 10 ^ k := by
    rw [Nat.shiftLeft_eq]
    calc 2 ^ 52 ≤ 1 * 2 ^ 53 * 1 := by decide
      _ ≤ m * 2 ^ 53 * 10 ^ k :=
        Nat.mul_le_mul (Nat.mul_le_mul_right _ positive) (Nat.one_le_pow _ _ (by decide))
  have read := nearest_mul (Binary.le_unit_of_wide wide) packed
  have value : ((m <<< 53 : ℕ) * 2 ^ (-53 : ℤ) * ((10 ^ k : ℕ) * 2 ^ (0 : ℤ)) : ℚ) =
      m * 10 ^ k := by
    rw [Nat.shiftLeft_eq, Nat.cast_mul, Nat.cast_pow, Nat.cast_pow, zpow_zero, mul_one]
    norm_num [mul_assoc]
  rwa [value] at read

end Scientific

/-- A decimal that is too long for the table is read as the nearest double. -/
theorem nearest_of_ofScientific {x : Float} {m : ℕ} {e : ℤ}
    (packed : x.toModel = Float.Model.pack (UnpackedFloat.ofScientific Format.binary64 m e)) :
    Nearest x (m * 10 ^ e) := by
  have zero (packed : x.toModel = Float.Model.pack (.zero .positive)) : value? x = some 0 :=
    value?_of_zero (s := .positive) (by rw [packed]; rfl)
  obtain rfl | positive := Nat.eq_zero_or_pos m
  · refine nearest_of_tiny (zero packed) (by positivity) ?_
    rw [Nat.cast_zero, zero_mul]
    positivity
  obtain large | low := lt_or_ge 2048 e
  · rw [ofScientific_of_large positive large] at packed
    exact nearest_of_huge (by rw [packed]; rfl) (le_of_large positive large)
  obtain small | high := lt_or_ge e (-(2048 + m.log2 : ℤ))
  · rw [ofScientific_of_small positive low small] at packed
    exact nearest_of_tiny (zero packed) (by positivity) (le_of_small small)
  -- In range, the digits and the power of ten are both exact, and only their product or quotient
  -- is rounded.
  obtain negative | nonneg := lt_or_ge e 0
  · obtain ⟨some, ten, quotient⟩ := ofScientific_of_neg positive low high negative
    rw [quotient] at packed
    obtain ⟨k, rfl⟩ : ∃ k : ℕ, e = -k := ⟨e.natAbs, by omega⟩
    simpa [div_eq_mul_inv] using nearest_div packed
  · obtain ⟨some, ten, product⟩ := ofScientific_of_nonneg positive low high nonneg
    rw [product] at packed
    obtain ⟨k, rfl⟩ := Int.eq_ofNat_of_zero_le nonneg
    rw [zpow_natCast]
    exact nearest_of_digits_mul positive packed

/-- A decimal is read as the nearest double. -/
theorem nearest_ofScientific (m : ℕ) (negative : Bool) (e : ℕ) :
    Nearest (Float.ofScientific m negative e)
      (m * 10 ^ (if negative then -(e : ℤ) else e)) := by
  unfold Float.ofScientific
  split
  · rename_i small
    have power := value?_powersOfTen ⟨e, Nat.lt_succ_of_le small.2⟩
    have digits := value?_toFloat small.1
    cases negative with
    | false =>
      have near := nearest_mul_of_nonneg digits power (Nat.cast_nonneg m) (by positivity)
      rwa [← zpow_natCast] at near
    | true =>
      have near := nearest_div_of_nonneg digits power (Nat.cast_nonneg m) (by positivity)
      rwa [← zpow_natCast, div_eq_mul_inv, ← zpow_neg] at near
  · cases negative with
    | false => exact nearest_of_ofScientific rfl
    | true =>
      have same : Int.negOfNat e = -(e : ℤ) := Int.negOfNat_eq
      show Nearest _ (m * 10 ^ (-(e : ℤ)))
      rw [← same]
      exact nearest_of_ofScientific rfl

/-- Whole numbers are made into the nearest double. -/
theorem nearest_ofNat (n : ℕ) : Nearest (Float.ofNat n) n := by
  have near := nearest_ofScientific n false 0
  rwa [if_neg Bool.false_ne_true, Nat.cast_zero, zpow_zero, mul_one] at near

/-- A natural number below `2 ^ 53` is a double without rounding. -/
theorem value?_ofNat {n : ℕ} (small : n < 2 ^ 53) : value? (Float.ofNat n) = some (n : ℚ) := by
  obtain ⟨x, value⟩ := exists_value_natCast small
  exact (nearest_ofNat n).value?_eq value

/-- Every whole number below `2 ^ 53` is a double. -/
theorem value?_ofInt {k : ℤ} (small : k.natAbs < 2 ^ 53) :
    value? (Float.ofInt k) = some (k : ℚ) := by
  cases k with
  | ofNat n => exact value?_ofNat small
  | negSucc n =>
    have size : value? (Float.ofNat (n + 1)) = some ((n + 1 : ℕ) : ℚ) := value?_ofNat small
    show value? (-Float.ofNat (n + 1)) = _
    rw [value?_neg, size, Int.cast_negSucc, Option.map_some]

end Number

namespace Decimal

/-- The number that a decimal is. -/
def amount (d : Decimal) : ℚ :=
  d.digits * 10 ^ d.exponent

/-- A number has as many digits as its power of ten says. -/
theorem width_spec {n : ℕ} (positive : 0 < n) :
    (10 ^ ((width n : ℤ) - 1) : ℚ) ≤ n ∧ (n : ℚ) < 10 ^ (width n : ℤ) := by
  have full : 0 < width n := Nat.length_toDigits_pos
  obtain ⟨k, size⟩ := Nat.exists_eq_succ_of_ne_zero full.ne'
  have below : n < 10 ^ width n := (Nat.length_toDigits_le_iff (by decide) full).mp le_rfl
  have above : 10 ^ k ≤ n := by
    rcases Nat.eq_zero_or_pos k with rfl | some
    · exact positive
    · by_contra! less
      have short : width n ≤ k := (Nat.length_toDigits_le_iff (by decide) some).mpr less
      omega
  constructor
  · rw [size, Nat.cast_succ, add_sub_cancel_right, zpow_natCast]
    exact_mod_cast above
  · rw [zpow_natCast]
    exact_mod_cast below

/-- The double of a decimal is the nearest one. -/
theorem toFloat_nearest (d : Decimal) : Number.Nearest d.toFloat d.amount := by
  have ten : (10 : ℚ) ≠ 0 := by norm_num
  obtain ⟨digits, exponent⟩ := d
  unfold toFloat amount
  dsimp only
  split
  · rename_i none
    have zero : Number.value? 0.0 = some 0 := Number.value?_of_zero (s := .positive) rfl
    refine Number.nearest_of_tiny zero (by positivity) ?_
    obtain rfl | tiny := none
    · rw [Nat.cast_zero, zero_mul]
      positivity
    obtain rfl | some := Nat.eq_zero_or_pos digits
    · rw [Nat.cast_zero, zero_mul]
      positivity
    -- Fewer than so many digits before the point are too small even for half of the least double:
    -- `10 ^ 30` is more than `2 ^ 99`, and eleven of these are beyond `2 ^ 1075`.
    calc (digits * 10 ^ exponent : ℚ)
        ≤ 10 ^ (width digits : ℤ) * 10 ^ exponent :=
          mul_le_mul_of_nonneg_right (width_spec some).2.le (by positivity)
      _ = 10 ^ (width digits + exponent : ℤ) := (zpow_add₀ ten _ _).symm
      _ ≤ 10 ^ (-330 : ℤ) := zpow_le_zpow_right₀ (by norm_num) tiny.le
      _ = (10 ^ 30)⁻¹ ^ 11 := by
        rw [inv_pow, ← pow_mul, zpow_neg]
        rfl
      _ ≤ (2 ^ 99)⁻¹ ^ 11 := pow_le_pow_left₀ (by positivity) (by norm_num) 11
      _ = 2 ^ (-1089 : ℤ) := by
        rw [inv_pow, ← pow_mul, zpow_neg]
        rfl
      _ ≤ 2 ^ (-1075 : ℤ) := zpow_le_zpow_right₀ one_le_two (by decide)
  split
  · rename_i some huge
    have positive : 0 < digits := Nat.pos_of_ne_zero fun zero => some (.inl zero)
    refine Number.nearest_of_huge rfl ?_
    -- In the other direction, `2 ^ 205` is less than `10 ^ 62`.
    calc (2 ^ 1024 : ℚ) ≤ (2 ^ 205) ^ 5 := by
          rw [← pow_mul]
          exact pow_le_pow_right₀ one_le_two (by decide)
      _ ≤ (10 ^ 62) ^ 5 := pow_le_pow_left₀ (by positivity) (by norm_num) 5
      _ = 10 ^ (310 : ℤ) := by
        rw [← pow_mul]
        rfl
      _ ≤ 10 ^ (width digits - 1 + exponent : ℤ) := zpow_le_zpow_right₀ (by norm_num) (by omega)
      _ = 10 ^ (width digits - 1 : ℤ) * 10 ^ exponent := zpow_add₀ ten _ _
      _ ≤ digits * 10 ^ exponent :=
        mul_le_mul_of_nonneg_right (width_spec positive).1 (by positivity)
  · have near := Number.nearest_ofScientific digits (exponent < 0) exponent.natAbs
    have same : (if (decide (exponent < 0)) = true then -(exponent.natAbs : ℤ)
        else exponent.natAbs) = exponent := by
      simp only [decide_eq_true_eq]
      omega
    rwa [same] at near

end Decimal

end NumberedBasic
