import NumberedBasic.Proofs.Doubles

/-!
# Rounding

A number that is not a double is rounded on a significand with two more bits behind it.
`Binary.Represents` says which numbers these stand for, and `Binary.exists_roundWithAccuracy` what
comes out: the multiple of the unit of the last place that is nearest, for a unit that depends on
the size of the number. No double is nearer than this multiple (`Binary.abs_sub_le_of_unit`).
-/

set_option autoImplicit false

namespace NumberedBasic.Binary

open Float.Model Float.Model.UnpackedFloat

/-! ## Significands with a round bit and a sticky bit -/

/-- A significand with two bits stands for a number: the round bit is the half behind it, and the
sticky bit says that something less than a half is left. -/
def Represents (em : ExtendedMantissa) (x : ℚ) : Prop :=
  ∃ r : ℚ, 0 ≤ r ∧ r < 1 / 2 ∧ (em.stickyBit = true ↔ r ≠ 0) ∧
    x = em.mantissa + (if em.roundBit then 1 / 2 else 0) + r

variable {em : ExtendedMantissa} {x v : ℚ} {s : Sign} {m n : ℕ} {e : ℤ} {a : Accuracy}

/-- A significand on its own stands for itself. -/
theorem represents_exact (m : ℕ) :
    Represents (ExtendedMantissa.ofMantissaAndAccuracy m .exact) m :=
  ⟨0, le_rfl, by norm_num, by simp [ExtendedMantissa.ofMantissaAndAccuracy],
    by simp [ExtendedMantissa.ofMantissaAndAccuracy]⟩

/-- A quotient and what its remainder says stand for the fraction. -/
theorem represents_div (n : ℕ) {d : ℕ} (positive : 0 < d) :
    Represents (ExtendedMantissa.ofMantissaAndAccuracy (n / d) (accuracyOfFraction (n % d) d))
      (n / d) := by
  have below : n % d < d := Nat.mod_lt n positive
  have denominator : (0 : ℚ) < d := by exact_mod_cast positive
  have whole : (n / d : ℚ) = (n / d : ℕ) + (n % d : ℕ) / d := by
    rw [add_div' _ _ _ denominator.ne', div_left_inj' denominator.ne']
    exact_mod_cast (Nat.div_add_mod' n d).symm
  rw [whole]
  generalize n / d = q
  generalize n % d = r at below
  have fraction : (r / d : ℚ) < 1 := by
    rw [div_lt_one denominator]
    exact_mod_cast below
  unfold accuracyOfFraction
  by_cases zero : r = 0
  · rw [if_pos zero, zero, Nat.cast_zero, zero_div, add_zero]
    exact represents_exact q
  rw [if_neg zero]
  have some : (0 : ℚ) < r / d := div_pos (by exact_mod_cast Nat.pos_of_ne_zero zero) denominator
  obtain less | half | more := lt_trichotomy (2 * r) d
  · have less' : (r / d : ℚ) < 1 / 2 := by
      rw [div_lt_div_iff₀ denominator two_pos]
      exact_mod_cast (by omega : r * 2 < 1 * d)
    rw [Nat.compare_eq_lt.mpr less]
    exact ⟨r / d, some.le, less', iff_of_true rfl some.ne',
      by simp [ExtendedMantissa.ofMantissaAndAccuracy]⟩
  · have half' : (r / d : ℚ) = 1 / 2 := by
      rw [div_eq_div_iff denominator.ne' two_ne_zero]
      exact_mod_cast (by omega : r * 2 = 1 * d)
    rw [Nat.compare_eq_eq.mpr half, half']
    exact ⟨0, le_rfl, by norm_num, by simp [ExtendedMantissa.ofMantissaAndAccuracy],
      by simp [ExtendedMantissa.ofMantissaAndAccuracy]⟩
  · have more' : (1 / 2 : ℚ) < r / d := by
      rw [div_lt_div_iff₀ two_pos denominator]
      exact_mod_cast (by omega : 1 * d < r * 2)
    rw [Nat.compare_eq_gt.mpr more]
    have surplus : (0 : ℚ) < r / d - 1 / 2 := by linarith
    refine ⟨r / d - 1 / 2, surplus.le, by linarith, iff_of_true rfl surplus.ne', ?_⟩
    simp [ExtendedMantissa.ofMantissaAndAccuracy]

/-- Halving a number shifts its significand. -/
theorem Represents.shiftRightOne (h : Represents em x) : Represents em.shiftRightOne (x / 2) := by
  obtain ⟨r, nonneg, small, sticky, rfl⟩ := h
  obtain ⟨m, round, rest⟩ := em
  have odd : (m : ℚ) = 2 * (m / 2 : ℕ) + (if m % 2 ≠ 0 then 1 else 0) := by
    split
    · exact_mod_cast (by omega : m = 2 * (m / 2) + 1)
    · exact_mod_cast (by omega : m = 2 * (m / 2) + 0)
  refine ⟨(if round then 1 / 4 else 0) + r / 2, ?_, ?_, ?_, ?_⟩
  · split <;> linarith
  · split <;> linarith
  · show (round || rest) = true ↔ _
    rw [Bool.or_eq_true, sticky]
    cases round with
    | true => exact iff_of_true (.inl rfl) (by rw [if_pos rfl]; positivity)
    | false => simp
  · show _ = ((m / 2 : ℕ) : ℚ) + (if (m % 2 != 0) = true then 1 / 2 else 0) + _
    simp only [bne_iff_ne]
    rw [odd]
    split <;> split <;> ring

/-- Dividing a number by a power of two shifts its significand. -/
theorem Represents.shiftRight (h : Represents em x) (k : ℕ) :
    Represents (em >>> k) (x / 2 ^ k) := by
  change Represents (k.repeat ExtendedMantissa.shiftRightOne em) _
  induction k with
  | zero => simpa [Nat.repeat] using h
  | succ k ih =>
    rw [Nat.repeat, pow_succ, ← div_div]
    exact ih.shiftRightOne

/-- The significand that a number is rounded to is off by a half at most. -/
theorem Represents.abs_sub_le (h : Represents em x) : |x - em.roundedMantissa| ≤ 1 / 2 := by
  obtain ⟨r, nonneg, small, sticky, rfl⟩ := h
  obtain ⟨m, round, rest⟩ := em
  rw [abs_le]
  cases round with
  | false =>
    have rounded : (⟨m, false, rest⟩ : ExtendedMantissa).roundedMantissa = m := by
      cases rest <;> rfl
    rw [rounded]
    simp only [if_false, Bool.false_eq_true]
    constructor <;> linarith
  | true =>
    simp only [if_true]
    cases rest with
    | false =>
      -- halfway between two significands the even one is taken
      obtain rfl : r = 0 := by simpa using sticky
      have rounded : (⟨m, true, false⟩ : ExtendedMantissa).roundedMantissa = m + m % 2 := rfl
      obtain even | odd := Nat.mod_two_eq_zero_or_one m
      · rw [rounded, even]
        constructor <;> push_cast <;> linarith
      · rw [rounded, odd]
        constructor <;> push_cast <;> linarith
    | true =>
      have rounded : (⟨m, true, true⟩ : ExtendedMantissa).roundedMantissa = m + 1 := rfl
      rw [rounded]
      constructor <;> push_cast <;> linarith

/-- A significand with two bits stands for a number from it up to the next one. -/
theorem Represents.bounds (h : Represents em x) :
    (em.mantissa : ℚ) ≤ x ∧ x < em.mantissa + 1 := by
  obtain ⟨r, nonneg, small, -, rfl⟩ := h
  constructor <;> split <;> linarith

/-! ## Rounding -/

/-- What is left of a significand when bits are dropped. -/
theorem mantissa_shiftRight (em : ExtendedMantissa) (k : ℕ) :
    (em >>> k).mantissa = em.mantissa / 2 ^ k := by
  change (k.repeat ExtendedMantissa.shiftRightOne em).mantissa = _
  induction k with
  | zero => simp [Nat.repeat]
  | succ k ih =>
    change (k.repeat ExtendedMantissa.shiftRightOne em).mantissa / 2 = _
    rw [ih, Nat.div_div_eq_div_mul, ← pow_succ]

/-- The unit of the last place of a number that starts with `m` units of `2 ^ e`. -/
def unit (m : ℕ) (e : ℤ) : ℤ :=
  max (m.log2 + e - 52) (-1074)

/-- A significand that fills the width has units that are no larger than the last place. -/
theorem le_unit_of_wide (wide : 2 ^ 52 ≤ m) : e ≤ unit m e := by
  have width : 52 ≤ m.log2 := (Nat.le_log2 (by omega)).mpr wide
  unfold unit
  omega

/-- Units at or below the least exponent are no larger than the last place. -/
theorem le_unit_of_le (least : e ≤ -1074) : e ≤ unit m e :=
  least.trans (le_max_right _ _)

/-- Rounding aims at the unit of the last place. -/
theorem targetExponent_eq (m : ℕ) (e : ℤ) :
    Format.binary64.targetExponent (totalExponent m e) = unit m e := by
  have bits : Format.binary64.mantissaBits = 53 := rfl
  simp only [Format.targetExponent, totalExponent, bits, Format.minExponent, unit]
  congr 1
  omega

/-- Bits are dropped up to the unit of the last place. -/
theorem shiftToTargetExponent_eq (fine : e ≤ unit m e) :
    shiftToTargetExponent Format.binary64 m e a =
      (ExtendedMantissa.ofMantissaAndAccuracy m a >>> (unit m e - e).toNat, unit m e) := by
  simp only [shiftToTargetExponent, targetExponent_eq, shiftToExponent]
  congr 1
  omega

/-- A significand that is not too wide is left alone. -/
theorem shiftToTargetExponent_of_lt (small : m < 2 ^ 53) (least : -1074 ≤ e) :
    shiftToTargetExponent Format.binary64 m e .exact = (⟨m, false, false⟩, e) := by
  have width : m.log2 ≤ 52 := by
    by_cases zero : m = 0
    · simp [zero]
    · exact Nat.le_of_lt_succ ((Nat.log2_lt zero).mpr small)
  have none : (unit m e - e).toNat = 0 := by
    unfold unit
    omega
  simp only [shiftToTargetExponent, targetExponent_eq, shiftToExponent, none]
  rw [Nat.cast_zero, add_zero]
  rfl

/-- A significand that rounding has made one bit too wide is halved. -/
theorem shiftToTargetExponent_carry (least : -1074 ≤ e) :
    shiftToTargetExponent Format.binary64 (2 ^ 53) e .exact =
      (⟨2 ^ 52, false, false⟩, e + 1) := by
  have next : unit (2 ^ 53) e = e + 1 := by
    unfold unit
    rw [Nat.log2_two_pow]
    omega
  rw [shiftToTargetExponent_eq (by omega), next, show (e + 1 - e).toNat = 1 by omega]
  rfl

/-- Rounding keeps a significand or takes the next one. -/
theorem le_roundedMantissa (em : ExtendedMantissa) :
    em.mantissa ≤ em.roundedMantissa ∧ em.roundedMantissa ≤ em.mantissa + 1 := by
  obtain ⟨m, round, rest⟩ := em
  cases round with
  | false =>
    cases rest with
    | false => exact ⟨le_rfl, Nat.le_succ m⟩
    | true => exact ⟨le_rfl, Nat.le_succ m⟩
  | true =>
    cases rest with
    | false =>
      show m ≤ m + m % 2 ∧ m + m % 2 ≤ m + 1
      omega
    | true => exact ⟨Nat.le_succ m, le_rfl⟩

/-- The round bit and the sticky bit leave the significand as it is. -/
theorem mantissa_ofMantissaAndAccuracy (m : ℕ) (a : Accuracy) :
    (ExtendedMantissa.ofMantissaAndAccuracy m a).mantissa = m := by
  cases a with
  | exact => rfl
  | inexact order => cases order <;> rfl

/-- Only a number with the least unit may start with nothing. -/
theorem ne_zero_of_unit (fine : e ≤ unit m e) (coarse : unit m e ≠ -1074) : m ≠ 0 := by
  rintro rfl
  unfold unit at *
  rw [Nat.log2_zero] at *
  omega

/-- Counted in units of its last place, a number has a significand of full width, unless the unit is
the least one. -/
theorem shiftedMantissa_bounds (fine : e ≤ unit m e) :
    m / 2 ^ (unit m e - e).toNat < 2 ^ 53 ∧
      (2 ^ 52 ≤ m / 2 ^ (unit m e - e).toNat ∨ unit m e = -1074) := by
  have above := Nat.lt_log2_self (n := m)
  have amount : m.log2 ≤ 52 + (unit m e - e).toNat := by
    unfold unit
    omega
  refine ⟨?_, ?_⟩
  · rw [Nat.div_lt_iff_lt_mul (by positivity), ← pow_add]
    exact above.trans_le (Nat.pow_le_pow_right two_pos (by omega))
  · by_cases least : unit m e = -1074
    · exact .inr least
    · left
      have width : 52 + (unit m e - e).toNat = m.log2 := by
        unfold unit at *
        omega
      rw [Nat.le_div_iff_mul_le (by positivity), ← pow_add, width]
      exact Nat.log2_self_le (ne_zero_of_unit fine least)

/-- A number is rounded to the multiple of the unit of its last place that is nearest. -/
theorem exists_roundWithAccuracy (fine : e ≤ unit m e)
    (stands : Represents (ExtendedMantissa.ofMantissaAndAccuracy m a) (v / 2 ^ e)) :
    ∃ m' e', (∀ s, roundWithAccuracy Format.binary64 s m e a = assemble s m' e') ∧
      Canonical m' e' ∧ unit m e ≤ e' ∧ |v - m' * 2 ^ e'| ≤ 2 ^ unit m e / 2 := by
  have least : -1074 ≤ unit m e := le_max_right _ _
  have size : (0 : ℚ) < 2 ^ unit m e := by positivity
  have scaled : v / 2 ^ e / 2 ^ (unit m e - e).toNat = v / 2 ^ unit m e := by
    rw [div_div, ← zpow_natCast, ← zpow_add₀ two_ne_zero]
    congr 2
    omega
  have shifted := stands.shiftRight (unit m e - e).toNat
  rw [scaled] at shifted
  have near := shifted.abs_sub_le
  obtain ⟨low, high⟩ := le_roundedMantissa
    (ExtendedMantissa.ofMantissaAndAccuracy m a >>> (unit m e - e).toNat)
  rw [mantissa_shiftRight, mantissa_ofMantissaAndAccuracy] at low high
  obtain ⟨narrow, wide⟩ := shiftedMantissa_bounds fine
  unfold roundWithAccuracy
  rw [shiftToTargetExponent_eq fine]
  dsimp only
  generalize ExtendedMantissa.roundedMantissa _ = r at near low high ⊢
  have close : |v - r * 2 ^ unit m e| ≤ 2 ^ unit m e / 2 := by
    have same : v - r * 2 ^ unit m e = (v / 2 ^ unit m e - r) * 2 ^ unit m e := by
      rw [sub_mul, div_mul_cancel₀ _ size.ne']
    rw [same, abs_mul, abs_of_pos size]
    calc |v / 2 ^ unit m e - r| * 2 ^ unit m e
        ≤ 1 / 2 * 2 ^ unit m e := mul_le_mul_of_nonneg_right near size.le
      _ = 2 ^ unit m e / 2 := by ring
  obtain small | carried := Nat.lt_or_eq_of_le (by omega : r ≤ 2 ^ 53)
  · rw [shiftToTargetExponent_of_lt small least]
    exact ⟨r, unit m e, fun _ => rfl, ⟨small, least, wide.imp_left fun h => h.trans low⟩, le_rfl,
      close⟩
  · rw [carried, shiftToTargetExponent_carry least]
    refine ⟨2 ^ 52, unit m e + 1, fun _ => rfl, ⟨by decide, by omega, .inl le_rfl⟩, by omega, ?_⟩
    have same : ((2 ^ 52 : ℕ) : ℚ) * 2 ^ (unit m e + 1) = r * 2 ^ unit m e := by
      rw [carried, zpow_add_one₀ two_ne_zero]
      push_cast
      ring
    rw [same]
    exact close

/-- Of the multiples of a unit none is nearer than one that is off by half a unit at most. -/
theorem abs_sub_le_of_multiple {u w : ℚ} {i : ℤ} (size : 0 < u) (near : |v - i * u| ≤ u / 2)
    {j : ℤ} (multiple : w = j * u) : |v - i * u| ≤ |v - w| := by
  obtain rfl | other := eq_or_ne i j
  · rw [multiple]
  have apart : u ≤ |i * u - j * u| := by
    rw [← sub_mul, abs_mul, abs_of_pos size]
    have : (1 : ℚ) ≤ |(i - j : ℤ)| := by exact_mod_cast Int.one_le_abs (sub_ne_zero.mpr other)
    push_cast at this
    nlinarith
  have triangle := abs_sub_le (i * u) v (j * u)
  rw [abs_sub_comm (i * u) v] at triangle
  rw [multiple]
  linarith

/-- No double is nearer than the multiple of the unit of the last place that is nearest. -/
theorem abs_sub_le_of_unit {m' : ℕ} {e' : ℤ} (starts : m * 2 ^ e ≤ v) (fine : e ≤ unit m e)
    (coarse : unit m e ≤ e') (near : |v - m' * 2 ^ e'| ≤ 2 ^ unit m e / 2) {f : ℤ}
    (small : n < 2 ^ 53) (least : -1074 ≤ f) : |v - m' * 2 ^ e'| ≤ |v - n * 2 ^ f| := by
  have size : (0 : ℚ) < 2 ^ unit m e := by positivity
  have multiple (k : ℕ) {g : ℤ} (coarse : unit m e ≤ g) :
      (k * 2 ^ g : ℚ) = (k * 2 ^ (g - unit m e).toNat : ℤ) * 2 ^ unit m e := by
    push_cast
    rw [mul_assoc, ← zpow_natCast, ← zpow_add₀ two_ne_zero]
    congr 2
    omega
  rw [multiple m' coarse] at near ⊢
  by_cases above : unit m e ≤ f
  · exact abs_sub_le_of_multiple size near (multiple n above)
  -- a double with a smaller unit is below the power of two that the number starts with
  have unit_eq : unit m e = m.log2 + e - 52 := by
    unfold unit at *
    omega
  have power : (2 ^ 52 * 2 ^ unit m e : ℚ) ≤ v := by
    refine le_trans ?_ starts
    have log : ((2 ^ m.log2 : ℕ) : ℚ) ≤ m := by
      exact_mod_cast Nat.log2_self_le (ne_zero_of_unit fine (by omega))
    calc (2 ^ 52 * 2 ^ unit m e : ℚ) = 2 ^ m.log2 * 2 ^ e := by
          rw [← zpow_natCast, ← zpow_natCast, ← zpow_add₀ two_ne_zero, ← zpow_add₀ two_ne_zero,
            unit_eq]
          congr 1
          push_cast
          ring
      _ ≤ m * 2 ^ e := mul_le_mul_of_nonneg_right (by exact_mod_cast log) (by positivity)
  have below : (n * 2 ^ f : ℚ) ≤ 2 ^ 52 * 2 ^ unit m e := by
    have small : (n : ℚ) ≤ 2 ^ 53 := by exact_mod_cast small.le
    calc (n * 2 ^ f : ℚ) ≤ 2 ^ 53 * 2 ^ f := mul_le_mul_of_nonneg_right small (by positivity)
      _ = 2 ^ 52 * 2 ^ (f + 1) := by
          rw [zpow_add_one₀ two_ne_zero]
          ring
      _ ≤ 2 ^ 52 * 2 ^ unit m e :=
          mul_le_mul_of_nonneg_left (zpow_le_zpow_right₀ one_le_two (by omega)) (by positivity)
  have best := abs_sub_le_of_multiple size near
    (w := 2 ^ 52 * 2 ^ unit m e) (j := 2 ^ 52) (by push_cast; rfl)
  rw [abs_of_nonneg (by linarith : 0 ≤ v - 2 ^ 52 * 2 ^ unit m e)] at best
  rw [abs_of_nonneg (by linarith : 0 ≤ v - n * 2 ^ f)]
  linarith

end NumberedBasic.Binary
