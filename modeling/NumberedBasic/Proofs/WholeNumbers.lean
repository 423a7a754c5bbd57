import NumberedBasic.Proofs.IntegerParts
import NumberedBasic.Proofs.NumberReaders

/-!
# Whole numbers are printed and read back exactly

A number is printed by way of its fifteen leading decimal digits: the text that rounds to them is
read again, and what is read is compared with the limits for an exponent, tested for a fraction and
made into an integer. For a whole number below `10 ^ 15` none of these steps rounds. Its digits are
the leading ones and zeros behind them (`significant_of_whole`), so their text is read as the number
itself (`rounded_of_whole`), the tests see its value, and it fits into a word. What is printed is
the text of the integer (`format_of_whole`), and every reader of numbers reads it as the integer's
double (`integers_survive`).
-/

set_option autoImplicit false

namespace NumberedBasic

namespace Decimal

/-! ## Leading digits -/

/-- Scaling down divides a fraction by a power of ten. -/
theorem scaleDown_ratio (num den : ℕ) (power : ℤ) :
    ((scaleDown num den power).1 / (scaleDown num den power).2 : ℚ) = num / den / 10 ^ power := by
  simp only [scaleDown, Nat.pow_eq]
  split
  · obtain ⟨j, rfl⟩ : ∃ j : ℕ, power = -j := ⟨power.natAbs, by omega⟩
    rw [Int.natAbs_neg, Int.natAbs_natCast, zpow_neg, zpow_natCast, div_inv_eq_mul]
    push_cast
    ring
  · obtain ⟨j, rfl⟩ : ∃ j : ℕ, power = j := ⟨power.natAbs, by omega⟩
    rw [Int.natAbs_natCast, zpow_natCast, div_div]
    push_cast
    rfl

/-- Scaling down keeps the denominator positive. -/
theorem scaleDown_pos (num : ℕ) {den : ℕ} (positive : 0 < den) (power : ℤ) :
    0 < (scaleDown num den power).2 := by
  simp only [scaleDown, Nat.pow_eq]
  split <;> positivity

/-- A fraction that is scaled down is at least one exactly if it was at least the power of ten. -/
theorem scaleDown_le_iff (num : ℕ) {den : ℕ} (positive : 0 < den) (power : ℤ) :
    (scaleDown num den power).2 ≤ (scaleDown num den power).1 ↔ (10 ^ power : ℚ) ≤ num / den := by
  have scaled : (0 : ℚ) < (scaleDown num den power).2 := by
    exact_mod_cast scaleDown_pos num positive power
  rw [← @Nat.cast_le ℚ, ← one_le_div₀ scaled, scaleDown_ratio, one_le_div₀ (by positivity)]

/-- The leading digit of a positive fraction is at its leading exponent. -/
theorem leadingExponent_spec {num den : ℕ} (some : 0 < num) (positive : 0 < den) :
    (10 ^ leadingExponent num den : ℚ) ≤ num / den ∧
      (num / den : ℚ) < 10 ^ (leadingExponent num den + 1) := by
  have ten : (10 : ℚ) ≠ 0 := by norm_num
  have denominator : (0 : ℚ) < den := by exact_mod_cast positive
  obtain ⟨numLow, numHigh⟩ := width_spec some
  obtain ⟨denLow, denHigh⟩ := width_spec positive
  -- the widths leave two exponents open, and the comparison decides between them
  have least : (10 ^ ((width num - width den : ℤ) - 1) : ℚ) ≤ num / den := by
    rw [le_div_iff₀ denominator]
    calc (10 ^ ((width num - width den : ℤ) - 1) * den : ℚ)
        ≤ 10 ^ ((width num - width den : ℤ) - 1) * 10 ^ (width den : ℤ) :=
          mul_le_mul_of_nonneg_left denHigh.le (by positivity)
      _ = 10 ^ ((width num : ℤ) - 1) := by rw [← zpow_add₀ ten]; congr 1; ring
      _ ≤ num := numLow
  have most : (num / den : ℚ) < 10 ^ ((width num - width den : ℤ) + 1) := by
    rw [div_lt_iff₀ denominator]
    calc (num : ℚ) < 10 ^ (width num : ℤ) := numHigh
      _ = 10 ^ ((width num - width den : ℤ) + 1) * 10 ^ ((width den : ℤ) - 1) := by
          rw [← zpow_add₀ ten]; congr 1; ring
      _ ≤ 10 ^ ((width num - width den : ℤ) + 1) * den :=
          mul_le_mul_of_nonneg_left denLow (by positivity)
  have decides := scaleDown_le_iff num positive (width num - width den)
  unfold leadingExponent
  dsimp only
  split
  · exact ⟨decides.mp ‹_›, most⟩
  · rw [sub_add_cancel]
    exact ⟨least, not_le.mp (mt decides.mpr ‹_›)⟩

/-- The first digit of a whole number stands as far to the left as the number is wide. -/
theorem leadingExponent_of_whole {n den : ℕ} (some : 0 < n) (positive : 0 < den) :
    leadingExponent (n * den) den = width n - 1 := by
  have ten : (1 : ℚ) < 10 := by norm_num
  have denominator : (den : ℚ) ≠ 0 := by exact_mod_cast positive.ne'
  obtain ⟨low, high⟩ := width_spec some
  obtain ⟨least, most⟩ := leadingExponent_spec (Nat.mul_pos some positive) positive
  rw [Nat.cast_mul, mul_div_cancel_right₀ _ denominator] at least most
  have upper := (zpow_lt_zpow_iff_right₀ ten).mp (least.trans_lt high)
  have lower := (zpow_lt_zpow_iff_right₀ ten).mp (low.trans_lt most)
  omega

/-! ## Fifteen digits -/

/-- Rounding leaves a whole number as it is. -/
theorem roundHalfEven_mul (q : ℕ) {den : ℕ} (positive : 0 < den) :
    roundHalfEven (q * den) den = q := by
  simp [roundHalfEven, Nat.mul_div_cancel q positive, positive]

/-- Nothing of a whole number is rounded away where it has no more digits than are kept. -/
theorem significant_of_whole {n den places : ℕ} (some : 0 < n) (positive : 0 < den)
    (fits : width n ≤ places) :
    significant places (n * den) den =
      ⟨n * 10 ^ (places - width n), -(places - width n : ℕ)⟩ := by
  have denominator : (den : ℚ) ≠ 0 := by exact_mod_cast positive.ne'
  have full : 0 < width n := Nat.length_toDigits_pos
  have unit : leadingExponent (n * den) den - (places - 1 : ℕ) = -(places - width n : ℕ) := by
    rw [leadingExponent_of_whole some positive]
    omega
  have scaledPositive := scaleDown_pos (n * den) positive (-(places - width n : ℕ))
  have ratio := scaleDown_ratio (n * den) den (-(places - width n : ℕ))
  rw [Nat.cast_mul, mul_div_cancel_right₀ _ denominator, zpow_neg, zpow_natCast, div_inv_eq_mul,
    div_eq_iff (by exact_mod_cast scaledPositive.ne')] at ratio
  have exact : (scaleDown (n * den) den (-(places - width n : ℕ))).1 =
      n * 10 ^ (places - width n) * (scaleDown (n * den) den (-(places - width n : ℕ))).2 := by
    exact_mod_cast ratio
  unfold significant
  dsimp only
  rw [unit, exact, roundHalfEven_mul _ scaledPositive]

/-- Zeros behind a number are zeros behind its digits. -/
theorem toDigits_mul_pow {n : ℕ} (some : 0 < n) (j : ℕ) :
    Nat.toDigits 10 (n * 10 ^ j) = Nat.toDigits 10 n ++ List.replicate j '0' := by
  induction j with
  | zero => simp
  | succ j ih =>
    have step := Nat.toDigits_append_toDigits (b := 10) (by decide)
      (Nat.mul_pos some (show 0 < 10 ^ j by positivity)) (show 0 < 10 by decide)
    rw [ih, Nat.toDigits_zero, add_zero, List.append_assoc, ← List.replicate_succ'] at step
    rw [step]
    congr 1
    ring

end Decimal

namespace Number

open Numeral (Writes isMark)

/-! ## Printing -/

/-- The text of an integer: its digits, and a minus sign before them if it is less than zero. -/
theorem toList_toString (k : ℤ) :
    (toString k).toList = (if k < 0 then ['-'] else []) ++ Nat.toDigits 10 k.natAbs := by
  cases k with
  | ofNat n =>
    rw [if_neg (by simp)]
    exact Nat.toList_repr
  | negSucc n =>
    rw [if_pos (Int.negSucc_lt_zero n)]
    show ("-" ++ Nat.repr (n + 1)).toList = _
    rw [String.toList_append, Nat.toList_repr]
    rfl

/-- The digits of a number denote it. -/
theorem denoted_toDigits (n : ℕ) : Decimal.denoted (Nat.toDigits 10 n) = n := by
  rw [← Decimal.value_eq_denoted]
  exact Nat.ofDigitChars_ten_toDigits

/-- Digits and an exponent are a numeral. -/
theorem spells_scientific {ds : List Char} (full : ds ≠ []) (digits : ∀ d ∈ ds, d.isDigit = true)
    (negative : Bool) (leading : ℤ) :
    Numeral.Spells (signed negative (scientific 'e' ds leading)) negative
      ⟨Decimal.denoted ds, leading - (ds.length - 1 : ℕ)⟩ := by
  have sign : Numeral.Signed (if negative then ['-'] else []) negative := by
    cases negative
    · exact .none
    · exact .minus
  have exponent : Numeral.Exponent ('e' :: (toString leading).toList) leading := by
    have digits : ∀ d ∈ Nat.toDigits 10 leading.natAbs, d.isDigit = true :=
      fun _ => Nat.isDigit_of_mem_toDigits (by decide) (by decide)
    have sign : Numeral.Signed (if leading < 0 then ['-'] else []) (decide (leading < 0)) := by
      by_cases below : leading < 0
      · rw [if_pos below, decide_eq_true below]
        exact .minus
      · rw [if_neg below, decide_eq_false below]
        exact .none
    have power := Numeral.Exponent.power (.inl rfl) sign Nat.toDigits_ne_nil digits
    rw [List.cons_append, ← toList_toString, denoted_toDigits] at power
    have same : (if decide (leading < 0) = true then -(leading.natAbs : ℤ) else leading.natAbs) =
        leading := by
      simp only [decide_eq_true_eq]
      omega
    rwa [same] at power
  have text (body : List Char) :
      signed negative (body ++ 'e' :: (toString leading).toList) =
        (if negative then ['-'] else []) ++ body ++ 'e' :: (toString leading).toList := by
    cases negative <;> rfl
  have some : ds.any Char.isDigit = true := by
    rw [Numeral.any_isDigit_eq digits]
    simp [full]
  -- A single digit is written without a point.
  obtain _ | ⟨first, _ | ⟨second, rest⟩⟩ := ds
  · exact absurd rfl full
  · have spells := Numeral.Spells.intro sign (.whole digits) some exponent
    rw [← text, zero_add] at spells
    rw [List.length_singleton, Nat.sub_self, Nat.cast_zero, sub_zero]
    exact spells
  · rw [List.forall_mem_cons] at digits
    have front : ∀ d ∈ [first], d.isDigit = true := by simpa using digits.1
    have mantissa := Numeral.Mantissa.pointed front digits.2
    have some : ([first] ++ '.' :: second :: rest).any Char.isDigit = true := by simp [digits.1]
    have spells := Numeral.Spells.intro sign mantissa some exponent
    rw [← text, neg_add_eq_sub] at spells
    exact spells

/-- A finite double with the value of an integer is the fraction that the integer is. -/
theorem ratio_of_whole {negative : Bool} {m : ℕ} {e k : ℤ}
    (value : (Binary.finite negative m e).value? = some (k : ℚ)) :
    0 < (Binary.ratio m e).2 ∧ (Binary.ratio m e).1 = k.natAbs * (Binary.ratio m e).2 ∧
      (k ≠ 0 → (negative = true ↔ k < 0)) := by
  have positive : 0 < (Binary.ratio m e).2 := by
    simp only [Binary.ratio, Nat.pow_eq]
    split <;> positivity
  have nonneg : (0 : ℚ) ≤ m * 2 ^ e := by positivity
  rw [Binary.value?, Option.some.injEq] at value
  have size : (m * 2 ^ e : ℚ) = k.natAbs ∧ (k ≠ 0 → (negative = true ↔ k < 0)) := by
    rw [Nat.cast_natAbs, Int.cast_abs, ← value]
    cases negative with
    | true =>
      refine ⟨by simp [abs_of_nonneg nonneg], fun nonzero => iff_of_true rfl ?_⟩
      have : (k : ℚ) ≤ 0 := by
        rw [← value, if_pos rfl]
        linarith
      exact lt_of_le_of_ne (by exact_mod_cast this) nonzero
    | false =>
      refine ⟨by simp [abs_of_nonneg nonneg], fun nonzero => ?_⟩
      refine iff_of_false Bool.false_ne_true (not_lt.mpr ?_)
      have : (0 : ℚ) ≤ k := by
        rw [← value, if_neg Bool.false_ne_true]
        linarith
      exact_mod_cast this
  refine ⟨positive, ?_, size.2⟩
  have ratio := Binary.ratio_eq m e
  rw [size.1, div_eq_iff (by exact_mod_cast positive.ne')] at ratio
  exact_mod_cast ratio

/-- An integer is its size with its sign. -/
theorem signed_natAbs (k : ℤ) :
    (if decide (k < 0) = true then -(k.natAbs : ℚ) else k.natAbs) = k := by
  by_cases negative : k < 0
  · rw [if_pos (decide_eq_true negative), Nat.cast_natAbs, abs_of_neg negative, Int.cast_neg,
      neg_neg]
  · rw [if_neg (by simpa using negative), Nat.cast_natAbs, abs_of_nonneg (not_lt.mp negative)]

section Digits

variable {n : ℕ} (some : 0 < n) (small : n < 10 ^ 15)

include small in
/-- A whole number within the range has at most fifteen digits. -/
theorem width_le : Decimal.width n ≤ 15 :=
  (Nat.length_toDigits_le_iff (by decide) (by decide)).mpr small

include some small

/-- A whole number is filled up with zeros to fifteen digits. -/
theorem length_filled : (Nat.toDigits 10 (n * 10 ^ (15 - Decimal.width n))).length = 15 := by
  rw [Decimal.toDigits_mul_pow some, List.length_append, List.length_replicate]
  exact Nat.add_sub_cancel' (width_le small)

/-- The fifteen digits of a whole number are its own and zeros behind them. -/
theorem fifteenDigits_of_whole {den : ℕ} (positive : 0 < den) :
    fifteenDigits (n * den) den =
      scientific 'e' (Nat.toDigits 10 (n * 10 ^ (15 - Decimal.width n))) (Decimal.width n - 1) := by
  have fits := width_le small
  unfold fifteenDigits
  rw [Decimal.significant_of_whole some positive fits]
  dsimp only
  rw [length_filled some small, List.take_of_length_le (length_filled some small).le]
  congr 1
  omega

/-- The fifteen digits of a whole number are a numeral for it. -/
theorem spells_fifteenDigits {den : ℕ} (positive : 0 < den) (negative : Bool) :
    ∃ d : Decimal, d.amount = n ∧
      Numeral.Spells (signed negative (fifteenDigits (n * den) den)) negative d := by
  have fits := width_le small
  have digits : ∀ d ∈ Nat.toDigits 10 (n * 10 ^ (15 - Decimal.width n)), d.isDigit = true :=
    fun _ => Nat.isDigit_of_mem_toDigits (by decide) (by decide)
  have spells := spells_scientific Nat.toDigits_ne_nil digits negative (Decimal.width n - 1)
  rw [← fifteenDigits_of_whole some small positive] at spells
  refine ⟨_, ?_, spells⟩
  have exponent : (Decimal.width n : ℤ) - 1 - (15 - 1 : ℕ) = -(15 - Decimal.width n : ℕ) := by omega
  rw [Decimal.amount, denoted_toDigits, length_filled some small, exponent, zpow_neg, zpow_natCast]
  push_cast
  rw [mul_inv_cancel_right₀ (by positivity)]

end Digits

/-- The fifteen digits of a whole number are read as the number. -/
theorem value?_rounded_of_whole {x : Float} {k : ℤ} (value : value? x = some (k : ℚ))
    (small : k.natAbs < 10 ^ 15) (nonzero : k ≠ 0) : value? (rounded x) = some (k : ℚ) := by
  obtain ⟨negative, m, e, parts, -, -⟩ := exists_ofFloat_eq value
  have finite : (Binary.finite negative m e).value? = some (k : ℚ) := by
    rw [← parts]
    exact value
  obtain ⟨positive, numerator, sign⟩ := ratio_of_whole finite
  obtain rfl : negative = decide (k < 0) := Bool.eq_iff_iff.mpr (by simpa using sign nonzero)
  obtain ⟨d, amount, spells⟩ :=
    spells_fifteenDigits (Int.natAbs_pos.mpr nonzero) small positive (decide (k < 0))
  have near := nearest_numeral (decide (k < 0)) d
  rw [amount, signed_natAbs] at near
  unfold rounded
  rw [parts]
  dsimp only
  rw [numerator, Numeral.read?_of_writes ⟨_, _, spells, rfl⟩, Option.getD_some]
  exact near.value?_eq value

/-- Rounding a whole number to fifteen digits leaves it alone. -/
theorem rounded_of_whole {x : Float} {k : ℤ} (value : value? x = some (k : ℚ))
    (small : k.natAbs < 10 ^ 15) (nonzero : k ≠ 0) : rounded x = x :=
  eq_of_value? (value?_rounded_of_whole value small nonzero) value (by exact_mod_cast nonzero)

/-- A whole number is printed as the integer that it is. -/
theorem format_of_whole {x : Float} {k : ℤ} (value : value? x = some (k : ℚ))
    (small : k.natAbs < 10 ^ 15) : format x = toString k := by
  unfold format
  by_cases zero : k = 0
  · subst zero
    rw [Int.cast_zero] at value
    rw [if_pos ((beq_iff value value?_zero).mpr rfl)]
    rfl
  have nonzero : (k : ℚ) ≠ 0 := by exact_mod_cast zero
  have upper : value? 1e15 = some (10 ^ 15) := by decide +kernel
  have lower : ∃ q, value? 1e-5 = some q ∧ q < 1 := ⟨_, rfl, by decide +kernel⟩
  have size : value? x.abs = some ((k.natAbs : ℕ) : ℚ) := by
    rw [value?_abs value, Nat.cast_natAbs, Int.cast_abs]
  have large : ¬x.abs ≥ 1e15 := by
    rw [ge_iff_le, le_iff upper size, not_le]
    exact_mod_cast small
  have tiny : ¬x.abs < 1e-5 := by
    obtain ⟨q, limit, less⟩ := lower
    have one : (1 : ℚ) ≤ k.natAbs := by exact_mod_cast Int.natAbs_pos.mpr zero
    rw [lt_iff size limit, not_lt]
    linarith
  have whole : (fraction x == 0.0) = true := by
    rw [fraction_eq_zero_iff value, truncate_intCast]
  have word : signedWord x = k := by
    have part : truncate (k : ℚ) = k := truncate_intCast k
    rw [signedWord, saturated_eq value (by omega) (by omega), part]
  rw [if_neg fun equal => nonzero ((beq_iff value value?_zero).mp equal), isFinite_of_value? value,
    rounded_of_whole value small zero]
  dsimp only
  rw [Bool.not_true, if_neg Bool.false_ne_true, if_neg (not_or.mpr ⟨large, tiny⟩), if_pos whole,
    word]

/-! ## Reading back -/

/-- The digits of an integer are read as its double. -/
theorem nearest_natAbs {k : ℤ} (small : k.natAbs < 10 ^ 15) :
    Numeral.nearest (decide (k < 0)) ⟨k.natAbs, 0⟩ = Float.ofInt k := by
  by_cases zero : k = 0
  · subst zero
    rfl
  have near := nearest_numeral (decide (k < 0)) ⟨k.natAbs, 0⟩
  rw [Decimal.amount, zpow_zero, mul_one, signed_natAbs] at near
  have exact := value?_ofInt (k := k) (small.trans (by decide))
  exact eq_of_value? (near.value?_eq exact) exact (by exact_mod_cast zero)

/-- The text of an integer is a numeral for its double. -/
theorem writes_toString {k : ℤ} (small : k.natAbs < 10 ^ 15) :
    Writes (toString k).toList (Float.ofInt k) := by
  have digits : ∀ d ∈ Nat.toDigits 10 k.natAbs, d.isDigit = true :=
    fun _ => Nat.isDigit_of_mem_toDigits (by decide) (by decide)
  have some : (Nat.toDigits 10 k.natAbs).any Char.isDigit = true := by
    rw [Numeral.any_isDigit_eq digits]
    simp [Nat.toDigits_ne_nil]
  have signed : Numeral.Signed (if k < 0 then ['-'] else []) (decide (k < 0)) := by
    by_cases negative : k < 0
    · rw [if_pos negative, decide_eq_true negative]
      exact .minus
    · rw [if_neg negative, decide_eq_false negative]
      exact .none
  have spells := Numeral.Spells.intro signed (.whole digits) some .none
  rw [List.append_nil, ← toList_toString, denoted_toDigits, add_zero] at spells
  exact ⟨_, _, spells, (nearest_natAbs small).symm⟩

/-- A blank before a numeral is not read. -/
theorem ofField?_of_writes {cs : List Char} {x : Float} (writes : Writes cs x) :
    ofField? cs = some x ∧ ofField? (' ' :: cs) = some x := by
  have same : Text.trim cs = cs := Text.trim_of_marks writes.marks
  have blank : Text.trim (' ' :: cs) = Text.trim cs := rfl
  rw [ofField?_eq_some_iff, ofField?_eq_some_iff, blank, same]
  exact ⟨.inr writes, .inr writes⟩

/-- Every integer of less than sixteen digits is a double, and unless it is zero it is the only one
with its value and rounding to fifteen digits leaves it alone. It is printed by its digits, with a
minus sign exactly if it is less than zero, and `STR$` puts a blank before it exactly if it is not.
From both texts replies, data items and `VAL` read the double of the integer. -/
theorem integers_survive (clock : Clock) (dice : Dice) (x : Float) (k : ℤ)
    (small : k.natAbs < 10 ^ 15) (value : value? x = some (k : ℚ)) :
    value? (Float.ofInt k) = some (k : ℚ) ∧ (k ≠ 0 → Float.ofInt k = x ∧ rounded x = x) ∧
      format x = String.ofList ((if k < 0 then ['-'] else []) ++ Nat.toDigits 10 k.natAbs) ∧
      Builtin.call clock dice .STR [.number x] =
        .ok (.string (if 0 ≤ k then " " ++ format x else format x), dice) ∧
      ∀ text, text = format x ∨
          Builtin.call clock dice .STR [.number x] = .ok (.string text, dice) →
        ofField? text.toList = some (Float.ofInt k) ∧
          Builtin.call clock dice .VAL [.string text] = .ok (.number (Float.ofInt k), dice) := by
  have within : k.natAbs < 2 ^ 53 := small.trans (by decide)
  have text := format_of_whole value small
  have writes := writes_toString small
  have printed : Builtin.call clock dice .STR [.number x] =
      .ok (.string (if 0 ≤ k then " " ++ format x else format x), dice) := by
    have sign : x ≥ 0.0 ↔ 0 ≤ k := by
      rw [ge_iff_le, le_iff value?_zero value]
      exact_mod_cast Iff.rfl
    show Except.ok (Value.string (if x ≥ 0.0 then " " ++ format x else format x), dice) = _
    simp only [sign]
  refine ⟨value?_ofInt within, fun nonzero => ⟨?_, rounded_of_whole value small nonzero⟩,
    ?_, printed, ?_⟩
  · exact eq_of_value? (value?_ofInt within) value (by exact_mod_cast nonzero)
  · rw [text, ← toList_toString, String.ofList_toList]
  obtain ⟨plain, blank⟩ := ofField?_of_writes writes
  have field : ∀ t : String, t = format x ∨
      Builtin.call clock dice .STR [.number x] = .ok (.string t, dice) →
        ofField? t.toList = some (Float.ofInt k) := by
    rintro t (rfl | shown)
    · rwa [text]
    · rw [printed] at shown
      cases shown
      split
      · rw [text, String.toList_append]
        exact blank
      · rwa [text]
  intro t source
  have read := field t source
  refine ⟨read, ?_⟩
  show Except.ok (Value.number (ofFront t.toList), dice) = _
  rw [ofFront_of_ofField? read]

/-- The least number of fifteen digits survives being printed, stored as a text and read back. -/
theorem integers_survive_least :
    format (-999999999999999.0) = "-999999999999999" ∧
      Builtin.call ⟨1980, 1, 1, 0, 0, 0⟩ (.ofSeed 0 0.0) .STR [.number (-999999999999999.0)] =
        .ok (.string "-999999999999999", .ofSeed 0 0.0) ∧
      ofField? "-999999999999999".toList = some (-999999999999999.0) ∧
      Builtin.call ⟨1980, 1, 1, 0, 0, 0⟩ (.ofSeed 0 0.0) .VAL [.string "-999999999999999"] =
        .ok (.number (-999999999999999.0), .ofSeed 0 0.0) := by
  have double : (-999999999999999.0 : Float) = Float.ofInt (-999999999999999) := by decide +kernel
  have value : value? (-999999999999999.0) = some ((-999999999999999 : ℤ) : ℚ) := by
    rw [double]
    exact value?_ofInt (by decide)
  obtain ⟨-, same, digits, shown, read⟩ := integers_survive ⟨1980, 1, 1, 0, 0, 0⟩ (.ofSeed 0 0.0)
    (-999999999999999.0) (-999999999999999) (by decide) value
  have text : format (-999999999999999.0) = "-999999999999999" := digits.trans (by decide +kernel)
  obtain ⟨field, front⟩ := read "-999999999999999" (.inl text.symm)
  rw [(same (by decide)).1] at field front
  rw [if_neg (by decide), text] at shown
  exact ⟨text, shown, field, front⟩

end Number

end NumberedBasic
