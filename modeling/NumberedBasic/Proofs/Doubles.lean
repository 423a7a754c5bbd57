import Mathlib.Algebra.Order.Field.Power
import Mathlib.Data.Nat.Cast.Field
import Mathlib.Data.Nat.Cast.Order.Field
import Mathlib.Data.Rat.Floor
import Mathlib.Tactic.FieldSimp
import Mathlib.Tactic.Linarith
import Mathlib.Tactic.NormNum
import Mathlib.Tactic.Positivity
import Mathlib.Tactic.Ring
import NumberedBasic.Number

/-!
# Doubles as numbers

A double that is neither infinite nor undefined is a rational number (`Number.value?`): a whole
number of units, each of them a power of two. Its bits hold a sign, an exponent and a significand.
Packing such parts and unpacking the bits undo each other where the parts are those of a double
(`Binary.Canonical.unpack_pack`, `Binary.canonical_of_unpack`). So two doubles that are the same
number are the same double, the two zeros apart (`Number.eq_of_value?`), and doubles are compared as
the numbers that they are (`Number.lt_iff`, `Number.le_iff`, `Number.beq_iff`).
-/

set_option autoImplicit false

namespace NumberedBasic

/-! ## Values and integer parts -/

/-- The number that a finite double is. -/
def Binary.value? : Binary → Option ℚ
  | .finite negative significand exponent =>
    some ((if negative then -1 else 1) * (significand * 2 ^ exponent))
  | .undefined | .infinite _ => none

namespace Number

/-- The number that a finite double is. -/
def value? (x : Float) : Option ℚ :=
  (Binary.ofFloat x).value?

/-- The double that is no number. -/
def IsUndefined (x : Float) : Prop :=
  Binary.ofFloat x = .undefined

/-- A number without its fraction. -/
def truncate (q : ℚ) : ℤ :=
  if 0 ≤ q then ⌊q⌋ else ⌈q⌉

/-- Without its fraction, a number that is not negative is rounded down. -/
theorem truncate_of_nonneg {q : ℚ} (h : 0 ≤ q) : truncate q = ⌊q⌋ :=
  if_pos h

/-- A whole number is its integer part. -/
theorem truncate_intCast (k : ℤ) : truncate (k : ℚ) = k := by
  unfold truncate
  split
  · exact Int.floor_intCast k
  · exact Int.ceil_intCast k

/-- Dropping the fraction does not look at the sign. -/
theorem truncate_neg {q : ℚ} (h : 0 ≤ q) : truncate (-q) = -⌊q⌋ := by
  unfold truncate
  rcases h.eq_or_lt with rfl | positive
  · simp
  · rw [if_neg (by linarith), Int.ceil_neg]

/-- The integer parts that are indices up to a bound are those of the numbers above minus one and
below the number after the bound. -/
theorem truncate_mem_iff {q : ℚ} {bound : ℕ} :
    (∃ i : ℕ, i ≤ bound ∧ truncate q = i) ↔ -1 < q ∧ q < bound + 1 := by
  unfold truncate
  by_cases nonneg : 0 ≤ q
  · rw [if_pos nonneg]
    constructor
    · rintro ⟨i, within, part⟩
      have below : q < i + 1 := by
        have := Int.lt_floor_add_one q
        rw [part] at this
        exact_mod_cast this
      have : (i : ℚ) ≤ bound := by exact_mod_cast within
      exact ⟨by linarith, by linarith⟩
    · rintro ⟨-, below⟩
      have small : ⌊q⌋ < bound + 1 := Int.floor_lt.mpr (by exact_mod_cast below)
      have part : 0 ≤ ⌊q⌋ := Int.floor_nonneg.mpr nonneg
      exact ⟨⌊q⌋.toNat, by omega, by omega⟩
  · rw [if_neg nonneg]
    have nonpos : ⌈q⌉ ≤ 0 := Int.ceil_le.mpr (by push_cast; linarith)
    constructor
    · rintro ⟨i, -, part⟩
      have above : (-1 : ℤ) < ⌈q⌉ := by omega
      have := Int.lt_ceil.mp above
      push_cast at this
      have positive : (0 : ℚ) ≤ bound := Nat.cast_nonneg bound
      exact ⟨this, by linarith⟩
    · rintro ⟨above, -⟩
      have : (-1 : ℤ) < ⌈q⌉ := Int.lt_ceil.mpr (by push_cast; exact above)
      exact ⟨0, Nat.zero_le _, by push_cast; omega⟩

end Number

namespace Binary

/-- The fraction that a significand and an exponent are brought to has their value. -/
theorem ratio_eq (significand : ℕ) (exponent : ℤ) :
    ((ratio significand exponent).1 : ℚ) / (ratio significand exponent).2 =
      significand * 2 ^ exponent := by
  simp only [ratio, Nat.pow_eq]
  by_cases negative : exponent < 0
  · have same : exponent = -(exponent.natAbs : ℤ) := by omega
    rw [if_pos negative]
    conv_rhs => rw [same, zpow_neg, zpow_natCast]
    push_cast
    rw [div_eq_mul_inv]
  · have same : exponent = (exponent.natAbs : ℤ) := by omega
    rw [if_neg negative]
    conv_rhs => rw [same, zpow_natCast]
    push_cast
    rw [div_one]

/-- Dropping the fraction of a double without its sign is rounding down. -/
theorem wholePart_eq (significand : ℕ) (exponent : ℤ) :
    (wholePart significand exponent : ℤ) = ⌊(significand * 2 ^ exponent : ℚ)⌋ := by
  rw [← ratio_eq, Rat.floor_natCast_div_natCast, ← Int.natCast_ediv]
  rfl

open Float.Model Float.Model.UnpackedFloat

/-! ## Packing -/

/-- The sign of packed components is the sign they were packed with. -/
theorem unpackSign_packComponents {spec : Format} {s : Sign} {e : BitVec spec.exponentBits}
    {m : BitVec spec.mantissaBitsWithoutImplicit} :
    unpackSign (packComponents spec s e m) = s.toBitVec := by
  ext i inside
  obtain rfl : i = 0 := by omega
  delta unpackSign packComponents
  simp [BitVec.getLsbD_append, BitVec.getElem_append]

/-- A sign is recovered from its bit. -/
theorem ofBitVec_toBitVec (s : Sign) : Sign.ofBitVec s.toBitVec = s := by
  cases s <;> rfl

/-- A bit is recovered from the sign that it stands for. -/
theorem toBitVec_ofBitVec (b : BitVec 1) : (Sign.ofBitVec b).toBitVec = b := by
  revert b
  decide

/-- A pattern of bits is made of its three fields. -/
theorem packComponents_unpack {spec : Format} (b : BitVec spec.numBits) :
    packComponents spec (Sign.ofBitVec (unpackSign b)) (unpackExponent b) (unpackMantissa b) =
      b := by
  apply BitVec.eq_of_getLsbD_eq
  intro i inside
  rw [packComponents, toBitVec_ofBitVec]
  delta unpackSign unpackExponent unpackMantissa
  simp only [BitVec.getLsbD_append, BitVec.getLsbD_cast, BitVec.getLsbD_extractLsb]
  have mantissaBits := spec.hm
  have exponentBits := spec.he
  by_cases low : i < spec.mantissaBitsWithoutImplicit
  · rw [if_pos low, decide_eq_true (by omega), Bool.true_and, Nat.zero_add]
  rw [if_neg low]
  by_cases middle : i - spec.mantissaBitsWithoutImplicit < spec.exponentBits
  · rw [if_pos middle, decide_eq_true (by omega), Bool.true_and]
    congr 1
    omega
  · unfold Format.numBits at inside
    rw [if_neg middle, decide_eq_true (by omega), Bool.true_and]
    congr 1
    omega

/-- The bit in front of a stored significand adds the weight of 52 bits. -/
theorem toNat_one_append (m : BitVec 52) : (1#1 ++ m).toNat = 2 ^ 52 + m.toNat := by
  rw [BitVec.toNat_append, ← Nat.shiftLeft_add_eq_or_of_lt m.isLt]
  rfl

/-- A significand of full width and an exponent in range. -/
structure Normal (m : ℕ) (e : ℤ) : Prop where
  low : 2 ^ 52 ≤ m
  high : m < 2 ^ 53
  least : -1074 ≤ e
  most : e ≤ 971

variable {s : Sign} {m m' : ℕ} {e e' : ℤ}

/-- A significand of full width is not zero. -/
theorem Normal.pos (normal : Normal m e) : 0 < m :=
  lt_of_lt_of_le (by decide) normal.low

/-- A significand of full width has its leading bit at place 52. -/
theorem Normal.log2_eq (normal : Normal m e) : m.log2 = 52 := by
  have nonzero := normal.pos.ne'
  have low := (Nat.le_log2 nonzero).mpr normal.low
  have high := (Nat.log2_lt nonzero).mpr normal.high
  omega

/-- How the parts of a finite double are packed. -/
theorem pack_finite (positive : 0 < m) :
    UnpackedFloat.pack Format.binary64 (.finite s m e positive) =
      if 2 ^ 11 ≤ (e + 1023 + 52).toNat + 1 then packedInfinity Format.binary64 s
      else if m.log2 + 1 = 53 then
        packComponents Format.binary64 s (BitVec.ofNat 11 (e + 1023 + 52).toNat)
          (BitVec.ofNat 52 m)
      else packComponents Format.binary64 s 0#11 (BitVec.ofNat 52 m) :=
  rfl

/-- A significand of full width has an exponent field of its own. -/
theorem Normal.pack_eq (normal : Normal m e) (positive : 0 < m) :
    UnpackedFloat.pack Format.binary64 (.finite s m e positive) =
      packComponents Format.binary64 s (BitVec.ofNat 11 (e + 1075).toNat) (BitVec.ofNat 52 m) := by
  have most := normal.most
  have biased : e + 1023 + 52 = e + 1075 := by omega
  rw [pack_finite, biased, if_neg (by omega), if_pos (by rw [normal.log2_eq])]

/-- A significand that is not of full width has an exponent field of zeros. -/
theorem pack_eq_of_lt (positive : 0 < m) (narrow : m < 2 ^ 52) :
    UnpackedFloat.pack Format.binary64 (.finite s m (-1074) positive) =
      packComponents Format.binary64 s 0#11 (BitVec.ofNat 52 m) := by
  have width := (Nat.log2_lt positive.ne').mpr narrow
  rw [pack_finite, if_neg (by decide), if_neg (by omega)]

/-! ## Unpacking -/

section Fields

variable {b : BitVec Format.binary64.numBits}

/-- An exponent field of ones stands for no number. -/
theorem unpack_of_top (top : unpackExponent b = -1#11) :
    UnpackedFloat.unpack Format.binary64 b =
      if unpackMantissa b = 0#52 then .infinity (Sign.ofBitVec (unpackSign b)) else .notANumber :=
  if_pos top

/-- An exponent field and a significand of zeros stand for zero. -/
theorem unpack_of_zero (bottom : unpackExponent b = 0#11) (zero : unpackMantissa b = 0#52) :
    UnpackedFloat.unpack Format.binary64 b = .zero (Sign.ofBitVec (unpackSign b)) := by
  have notTop : unpackExponent b ≠ -1#11 := by
    rw [bottom]
    decide
  exact (if_neg notTop).trans ((if_pos bottom).trans (dif_pos zero))

/-- An exponent field of zeros stands for the least exponent. -/
theorem unpack_of_bottom (bottom : unpackExponent b = 0#11) (nonzero : unpackMantissa b ≠ 0#52) :
    ∃ positive, UnpackedFloat.unpack Format.binary64 b =
      .finite (Sign.ofBitVec (unpackSign b)) (unpackMantissa b).toNat (-1074) positive := by
  have notTop : unpackExponent b ≠ -1#11 := by
    rw [bottom]
    decide
  have least : ((unpackExponent b).toNat : ℤ) - (1023 + 52) + 1 = -1074 := by
    rw [bottom]
    rfl
  rw [← least]
  exact ⟨_, (if_neg notTop).trans ((if_pos bottom).trans (dif_neg nonzero))⟩

/-- Every other exponent field stands for a significand of full width. -/
theorem unpack_of_normal (notTop : unpackExponent b ≠ -1#11) (notBottom : unpackExponent b ≠ 0#11) :
    ∃ positive, UnpackedFloat.unpack Format.binary64 b =
      .finite (Sign.ofBitVec (unpackSign b)) (1#1 ++ unpackMantissa b).toNat
        ((unpackExponent b).toNat - (1023 + 52)) positive :=
  ⟨_, (if_neg notTop).trans (if_neg notBottom)⟩

end Fields

/-- Finite doubles with the same parts are the same. -/
theorem finite_congr {s' : Sign} (sign : s' = s) (significand : m' = m) (exponent : e' = e)
    (positive' : 0 < m') (positive : 0 < m) :
    UnpackedFloat.finite s' m' e' positive' = .finite s m e positive := by
  subst sign significand exponent
  rfl

/-- The stored exponent of a normal double does not overflow its field. -/
theorem Normal.toNat_exponent (normal : Normal m e) :
    (BitVec.ofNat 11 (e + 1075).toNat).toNat = (e + 1075).toNat := by
  have := normal.most
  rw [BitVec.toNat_ofNat, Nat.mod_eq_of_lt (by omega)]

/-- A normal double keeps its parts in its bits. -/
theorem Normal.unpack_pack (normal : Normal m e) (positive : 0 < m) :
    (Float.Model.pack (.finite s m e positive)).unpack = .finite s m e positive := by
  have least := normal.least
  have most := normal.most
  have exponent := normal.toNat_exponent
  let b := packComponents Format.binary64 s (BitVec.ofNat 11 (e + 1075).toNat) (BitVec.ofNat 52 m)
  have field : unpackExponent b = BitVec.ofNat 11 (e + 1075).toNat := unpackExponent_packComponents
  have notTop : unpackExponent b ≠ -1#11 := by
    intro same
    have top : (-1#11).toNat = 2047 := by decide
    rw [← same, field, exponent] at top
    omega
  have notBottom : unpackExponent b ≠ 0#11 := by
    intro same
    have bottom : (0#11).toNat = 0 := rfl
    rw [← same, field, exponent] at bottom
    omega
  have significand : (1#1 ++ unpackMantissa b).toNat = m := by
    have low := normal.low
    have high := normal.high
    rw [unpackMantissa_packComponents]
    show (1#1 ++ BitVec.ofNat 52 m).toNat = m
    rw [toNat_one_append, BitVec.toNat_ofNat]
    omega
  have sign : Sign.ofBitVec (unpackSign b) = s := by
    rw [unpackSign_packComponents, ofBitVec_toBitVec]
  have bits : (Float.Model.pack (.finite s m e positive)).toBits.toBitVec = b :=
    normal.pack_eq positive
  obtain ⟨positive', unpacked⟩ := unpack_of_normal notTop notBottom
  unfold Float.Model.unpack
  rw [bits, unpacked]
  refine finite_congr sign significand ?_ positive' positive
  rw [field, exponent]
  omega

/-- The parts of a finite double: the significand has full width unless the exponent is the least
one. -/
structure Canonical (m : ℕ) (e : ℤ) : Prop where
  small : m < 2 ^ 53
  least : -1074 ≤ e
  full : 2 ^ 52 ≤ m ∨ e = -1074

/-- A number of units that is put together from parts; without units it is a zero. -/
def assemble (s : Sign) (m : ℕ) (e : ℤ) : UnpackedFloat :=
  if h : m = 0 then .zero s else .finite s m e (Nat.pos_of_ne_zero h)

/-- Without units, a zero is put together. -/
theorem assemble_of_eq_zero (nothing : m = 0) : assemble s m e = .zero s :=
  dif_pos nothing

/-- With units, a finite number is put together. -/
theorem assemble_of_pos (positive : 0 < m) : assemble s m e = .finite s m e positive :=
  dif_neg positive.ne'

/-- Canonical parts with a significand of full width are those of a normal double, if the exponent
is in range. -/
theorem Canonical.normal (canonical : Canonical m e) (full : 2 ^ 52 ≤ m) (most : e ≤ 971) :
    Normal m e :=
  ⟨full, canonical.small, canonical.least, most⟩

/-- A double with the least exponent keeps its significand in its bits. -/
theorem unpack_pack_of_lt (positive : 0 < m) (narrow : m < 2 ^ 52) :
    (Float.Model.pack (.finite s m (-1074) positive)).unpack = .finite s m (-1074) positive := by
  let b := packComponents Format.binary64 s 0#11 (BitVec.ofNat 52 m)
  have bottom : unpackExponent b = 0#11 := unpackExponent_packComponents
  have significand : (unpackMantissa b).toNat = m := by
    rw [unpackMantissa_packComponents]
    show (BitVec.ofNat 52 m).toNat = m
    rw [BitVec.toNat_ofNat, Nat.mod_eq_of_lt narrow]
  have nonzero : unpackMantissa b ≠ 0#52 := by
    intro same
    rw [same] at significand
    exact positive.ne significand
  have sign : Sign.ofBitVec (unpackSign b) = s := by
    rw [unpackSign_packComponents, ofBitVec_toBitVec]
  have bits : (Float.Model.pack (.finite s m (-1074) positive)).toBits.toBitVec = b :=
    pack_eq_of_lt positive narrow
  obtain ⟨positive', unpacked⟩ := unpack_of_bottom bottom nonzero
  unfold Float.Model.unpack
  rw [bits, unpacked]
  exact finite_congr sign significand rfl positive' positive

/-- What rounding puts together keeps its parts in its bits, unless it is too large. -/
theorem Canonical.unpack_pack (canonical : Canonical m e) (most : e ≤ 971) :
    (Float.Model.pack (assemble s m e)).unpack = assemble s m e := by
  by_cases nothing : m = 0
  · rw [assemble_of_eq_zero nothing]
    cases s <;> rfl
  · rw [assemble_of_pos (Nat.pos_of_ne_zero nothing)]
    obtain full | rfl := canonical.full
    · exact (canonical.normal full most).unpack_pack _
    · by_cases full : 2 ^ 52 ≤ m
      · exact (canonical.normal full most).unpack_pack _
      · exact unpack_pack_of_lt _ (not_le.mp full)

/-- A packed zero is unpacked with its sign. -/
theorem unpack_pack_zero (s : Sign) : (Float.Model.pack (.zero s)).unpack = .zero s := by
  cases s <;> rfl

/-- What is too large is packed as an infinity. -/
theorem unpack_pack_of_gt (positive : 0 < m) (large : 971 < e) :
    (Float.Model.pack (.finite s m e positive)).unpack = .infinity s := by
  have bits : (Float.Model.pack (.finite s m e positive)).toBits.toBitVec =
      packedInfinity Format.binary64 s := by
    show UnpackedFloat.pack Format.binary64 (.finite s m e positive) = _
    rw [pack_finite, if_pos (by omega)]
  unfold Float.Model.unpack
  rw [bits]
  cases s <;> rfl

/-! ## Different doubles, different numbers -/

/-- A finite double is made of its parts. -/
theorem canonical_of_unpack {b : BitVec Format.binary64.numBits} {positive : 0 < m}
    (finite : UnpackedFloat.unpack Format.binary64 b = .finite s m e positive) :
    Canonical m e ∧ e ≤ 971 ∧ b = UnpackedFloat.pack Format.binary64 (.finite s m e positive) := by
  have fits : (unpackMantissa b).toNat < 2 ^ 52 := (unpackMantissa b).isLt
  -- The stored exponent decides: at the top there are no finite doubles, at the bottom the leading
  -- bit is missing, and in between it is put in front of the stored ones.
  by_cases top : unpackExponent b = -1#11
  · rw [unpack_of_top top] at finite
    by_cases nothing : unpackMantissa b = 0#52
    · rw [if_pos nothing] at finite
      cases finite
    · rw [if_neg nothing] at finite
      cases finite
  by_cases bottom : unpackExponent b = 0#11
  · by_cases zero : unpackMantissa b = 0#52
    · rw [unpack_of_zero bottom zero] at finite
      cases finite
    · obtain ⟨positive', unpacked⟩ := unpack_of_bottom bottom zero
      rw [unpacked] at finite
      cases finite
      refine ⟨⟨fits.trans (by decide), le_rfl, .inr rfl⟩, by decide, ?_⟩
      rw [pack_eq_of_lt _ fits, BitVec.ofNat_toNat, BitVec.setWidth_eq, ← bottom]
      exact (packComponents_unpack b).symm
  · obtain ⟨positive', unpacked⟩ := unpack_of_normal top bottom
    rw [unpacked] at finite
    cases finite
    have below : (unpackExponent b).toNat < 2 ^ 11 := (unpackExponent b).isLt
    have ne_top : (unpackExponent b).toNat ≠ 2047 := fun same => top (BitVec.eq_of_toNat_eq same)
    have ne_zero : (unpackExponent b).toNat ≠ 0 := fun same => bottom (BitVec.eq_of_toNat_eq same)
    have significand := toNat_one_append (unpackMantissa b)
    have normal : Normal (1#1 ++ unpackMantissa b).toNat
        ((unpackExponent b).toNat - (1023 + 52)) :=
      ⟨by omega, by omega, by omega, by omega⟩
    refine ⟨⟨normal.high, normal.least, .inl normal.low⟩, normal.most, ?_⟩
    rw [normal.pack_eq]
    conv_lhs => rw [← packComponents_unpack b]
    congr 1
    · apply BitVec.eq_of_toNat_eq
      rw [normal.toNat_exponent]
      omega
    · apply BitVec.eq_of_toNat_eq
      rw [BitVec.toNat_ofNat]
      show (unpackMantissa b).toNat = (1#1 ++ unpackMantissa b).toNat % 2 ^ 52
      omega

/-- A double with a larger exponent is larger: its significand has full width. -/
theorem Canonical.lt_of_lt (canonical : Canonical m e) (canonical' : Canonical m' e')
    (less : e < e') : (m * 2 ^ e : ℚ) < m' * 2 ^ e' := by
  have small : (m : ℚ) < 2 ^ 53 := by exact_mod_cast canonical.small
  have full : (2 ^ 52 : ℚ) ≤ m' := by
    have least := canonical.least
    exact_mod_cast canonical'.full.resolve_right (by omega)
  calc (m * 2 ^ e : ℚ) < 2 ^ 53 * 2 ^ e := mul_lt_mul_of_pos_right small (by positivity)
    _ = 2 ^ 52 * 2 ^ (e + 1) := by
      rw [zpow_add_one₀ two_ne_zero]
      ring
    _ ≤ 2 ^ 52 * 2 ^ e' :=
      mul_le_mul_of_nonneg_left (zpow_le_zpow_right₀ one_le_two (by omega)) (by positivity)
    _ ≤ m' * 2 ^ e' := mul_le_mul_of_nonneg_right full (by positivity)

/-- Doubles are compared by their exponents first. -/
theorem Canonical.compare_eq (canonical : Canonical m e) (canonical' : Canonical m' e') :
    (compare e e').then (compare m m') = compare (m * 2 ^ e : ℚ) (m' * 2 ^ e') := by
  obtain less | rfl | more := lt_trichotomy e e'
  · rw [compare_lt_iff_lt.mpr less, compare_lt_iff_lt.mpr (canonical.lt_of_lt canonical' less)]
    rfl
  · have size : (0 : ℚ) < 2 ^ e := by positivity
    rw [compare_eq_iff_eq.mpr rfl]
    show compare m m' = _
    obtain less | rfl | more := lt_trichotomy m m'
    · have : (m * 2 ^ e : ℚ) < m' * 2 ^ e := mul_lt_mul_of_pos_right (by exact_mod_cast less) size
      rw [compare_lt_iff_lt.mpr less, compare_lt_iff_lt.mpr this]
    · rw [compare_eq_iff_eq.mpr rfl, compare_eq_iff_eq.mpr rfl]
    · have : (m' * 2 ^ e : ℚ) < m * 2 ^ e := mul_lt_mul_of_pos_right (by exact_mod_cast more) size
      rw [compare_gt_iff_gt.mpr more, compare_gt_iff_gt.mpr this]
  · rw [compare_gt_iff_gt.mpr more, compare_gt_iff_gt.mpr (canonical'.lt_of_lt canonical more)]
    rfl

/-- The value of a double fixes its significand and its exponent. -/
theorem Canonical.unique (canonical : Canonical m e) (canonical' : Canonical m' e')
    (same : (m * 2 ^ e : ℚ) = m' * 2 ^ e') : m = m' ∧ e = e' := by
  have equal := (canonical.compare_eq canonical').trans (compare_eq_iff_eq.mpr same)
  rw [Ordering.then_eq_eq, compare_eq_iff_eq, compare_eq_iff_eq] at equal
  exact equal.symm

/-- A number with a sign put before it. -/
def withSign (s : Sign) (q : ℚ) : ℚ :=
  match s with
  | .positive => q
  | .negative => -q

/-- A positive sign leaves a number as it is. -/
@[simp] theorem withSign_positive (q : ℚ) : withSign .positive q = q := rfl

/-- A negative sign is a minus. -/
@[simp] theorem withSign_negative (q : ℚ) : withSign .negative q = -q := rfl

/-- A sign does not change the magnitude of a number. -/
theorem abs_withSign (s : Sign) (q : ℚ) : |withSign s q| = |q| := by
  cases s with
  | positive => rfl
  | negative => exact abs_neg q

end Binary

namespace Number

open Float.Model Float.Model.UnpackedFloat

/-- Doubles with the same bits are the same. -/
theorem eq_of_toBits_eq {x y : Float} (same : x.toModel.toBits = y.toModel.toBits) : x = y := by
  obtain ⟨⟨_, _⟩⟩ := x
  obtain ⟨⟨_, _⟩⟩ := y
  cases same
  rfl

/-- A finite double is its significand at the place that its exponent says, with its sign. -/
theorem value?_of_finite {x : Float} {s : Sign} {m : ℕ} {e : ℤ} {positive : 0 < m}
    (finite : x.toModel.unpack = .finite s m e positive) :
    value? x = some (Binary.withSign s (m * 2 ^ e)) := by
  rw [value?, Binary.ofFloat, finite]
  cases s with
  | positive => exact congrArg some (one_mul _)
  | negative => exact congrArg some (neg_one_mul _)

/-- A double that is unpacked as a zero of either sign is the number zero. -/
theorem value?_of_zero {x : Float} {s : Sign} (zero : x.toModel.unpack = .zero s) :
    value? x = some 0 := by
  rw [value?, Binary.ofFloat, zero]
  simp [Binary.value?]

/-- The literal zero is the number zero. -/
theorem value?_zero : value? 0.0 = some 0 :=
  value?_of_zero (s := .positive) rfl

/-- A double with a value is a zero or has a sign, a significand and an exponent. -/
theorem of_value? {x : Float} {q : ℚ} (value : value? x = some q) :
    (∃ s, x.toModel.unpack = .zero s) ∨
      ∃ s m e positive, x.toModel.unpack = .finite s m e positive := by
  unfold value? Binary.ofFloat at value
  cases unpacked : x.toModel.unpack with
  | notANumber | infinity => simp [unpacked, Binary.value?] at value
  | zero s => exact .inl ⟨s, rfl⟩
  | finite s m e positive => exact .inr ⟨s, m, e, positive, rfl⟩

/-- A double with a value is finite. -/
theorem isFinite_of_value? {x : Float} {q : ℚ} (value : value? x = some q) : x.isFinite = true := by
  show x.toModel.unpack.isFinite = true
  obtain ⟨s, zero⟩ | ⟨s, m, e, positive, finite⟩ := of_value? value
  · rw [zero]
    rfl
  · rw [finite]
    rfl

/-- A double with a value that is not zero has a sign, a significand and an exponent. -/
theorem exists_parts {x : Float} {q : ℚ} (value : value? x = some q) (nonzero : q ≠ 0) :
    ∃ s m e positive, x.toModel.unpack = .finite s m e positive ∧ Binary.Canonical m e ∧ e ≤ 971 ∧
      q = Binary.withSign s (m * 2 ^ e) := by
  obtain ⟨s, zero⟩ | ⟨s, m, e, positive, finite⟩ := of_value? value
  · rw [value?_of_zero zero, Option.some.injEq] at value
    exact absurd value.symm nonzero
  · obtain ⟨canonical, most, -⟩ := Binary.canonical_of_unpack finite
    rw [value?_of_finite finite, Option.some.injEq] at value
    exact ⟨s, m, e, positive, finite, canonical, most, value.symm⟩

/-- No two doubles have the same value, apart from the two zeros. -/
theorem eq_of_value? {x y : Float} {q : ℚ} (value : value? x = some q) (same : value? y = some q)
    (nonzero : q ≠ 0) : x = y := by
  obtain ⟨s, m, e, positive, finite, canonical, most, parts⟩ := exists_parts value nonzero
  obtain ⟨s', m', e', positive', finite', canonical', most', parts'⟩ := exists_parts same nonzero
  have size : (0 : ℚ) < m * 2 ^ e := by positivity
  have size' : (0 : ℚ) < m' * 2 ^ e' := by positivity
  obtain ⟨rfl, equal⟩ : s = s' ∧ (m * 2 ^ e : ℚ) = m' * 2 ^ e' := by
    rw [parts] at parts'
    cases s <;> cases s' <;>
      simp only [Binary.withSign_positive, Binary.withSign_negative, reduceCtorEq, true_and,
        false_and] at parts' ⊢ <;> linarith
  obtain ⟨rfl, rfl⟩ := canonical.unique canonical' equal
  have bits := (Binary.canonical_of_unpack finite).2.2
  have bits' := (Binary.canonical_of_unpack finite').2.2
  exact eq_of_toBits_eq (UInt64.eq_of_toBitVec_eq (bits.trans bits'.symm))

/-- Changing both signs turns a comparison round. -/
theorem compare_neg_neg (q r : ℚ) : compare (-q) (-r) = (compare q r).swap := by
  obtain less | rfl | more := lt_trichotomy q r
  · rw [compare_lt_iff_lt.mpr less, compare_gt_iff_gt.mpr (neg_lt_neg less)]
    rfl
  · rw [compare_eq_iff_eq.mpr rfl, compare_eq_iff_eq.mpr rfl]
    rfl
  · rw [compare_gt_iff_gt.mpr more, compare_lt_iff_lt.mpr (neg_lt_neg more)]
    rfl

/-- Finite doubles are compared as the numbers that they are. -/
theorem compare_eq {x y : Float} {q r : ℚ} (value : value? x = some q)
    (value' : value? y = some r) :
    x.toModel.unpack.compare y.toModel.unpack = some (compare q r) := by
  -- Zeros of either sign compare equal; all others compare by sign first and then by size.
  obtain ⟨s, zero⟩ | ⟨s, m, e, positive, finite⟩ := of_value? value
  · rw [value?_of_zero zero, Option.some.injEq] at value
    rw [zero, ← value]
    obtain ⟨s', zero'⟩ | ⟨s', m', e', positive', finite'⟩ := of_value? value'
    · rw [value?_of_zero zero', Option.some.injEq] at value'
      rw [zero', ← value', compare_eq_iff_eq.mpr rfl]
      rfl
    · have size : (0 : ℚ) < m' * 2 ^ e' := by positivity
      rw [value?_of_finite finite', Option.some.injEq] at value'
      rw [finite', ← value']
      cases s' with
      | positive => exact congrArg some (compare_lt_iff_lt.mpr size).symm
      | negative => exact congrArg some (compare_gt_iff_gt.mpr (neg_lt_zero.mpr size)).symm
  · have size : (0 : ℚ) < m * 2 ^ e := by positivity
    obtain ⟨canonical, -, -⟩ := Binary.canonical_of_unpack finite
    rw [value?_of_finite finite, Option.some.injEq] at value
    rw [finite, ← value]
    obtain ⟨s', zero'⟩ | ⟨s', m', e', positive', finite'⟩ := of_value? value'
    · rw [value?_of_zero zero', Option.some.injEq] at value'
      rw [zero', ← value']
      cases s with
      | positive => exact congrArg some (compare_gt_iff_gt.mpr size).symm
      | negative => exact congrArg some (compare_lt_iff_lt.mpr (neg_lt_zero.mpr size)).symm
    · have size' : (0 : ℚ) < m' * 2 ^ e' := by positivity
      obtain ⟨canonical', -, -⟩ := Binary.canonical_of_unpack finite'
      have sizes := canonical.compare_eq canonical'
      rw [value?_of_finite finite', Option.some.injEq] at value'
      rw [finite', ← value']
      cases s with
      | positive =>
        cases s' with
        | positive => exact congrArg some sizes
        | negative =>
          exact congrArg some (compare_gt_iff_gt.mpr ((neg_lt_zero.mpr size').trans size)).symm
      | negative =>
        cases s' with
        | positive =>
          exact congrArg some (compare_lt_iff_lt.mpr ((neg_lt_zero.mpr size).trans size')).symm
        | negative =>
          exact congrArg some ((congrArg Ordering.swap sizes).trans (compare_neg_neg _ _).symm)

/-- Finite doubles are less than one another as the numbers are. -/
theorem lt_iff {x y : Float} {q r : ℚ} (value : value? x = some q) (value' : value? y = some r) :
    x < y ↔ q < r := by
  show decide ((x.toModel.unpack.compare y.toModel.unpack == some .lt) = true) = true ↔ _
  rw [compare_eq value value', decide_eq_true_iff, beq_iff_eq, Option.some.injEq, compare_lt_iff_lt]

/-- Finite doubles are at most one another as the numbers are. -/
theorem le_iff {x y : Float} {q r : ℚ} (value : value? x = some q) (value' : value? y = some r) :
    x ≤ y ↔ q ≤ r := by
  show decide ((x.toModel.unpack.compare y.toModel.unpack).any (·.isLE) = true) = true ↔ _
  rw [compare_eq value value', decide_eq_true_iff, Option.any_some, Ordering.isLE_iff_ne_gt,
    compare_gt_iff_gt, not_lt]

/-- Finite doubles compare equal exactly if they are the same number. -/
theorem beq_iff {x y : Float} {q r : ℚ} (value : value? x = some q) (value' : value? y = some r) :
    (x == y) = true ↔ q = r := by
  show (x.toModel.unpack.compare y.toModel.unpack == some .eq) = true ↔ _
  rw [compare_eq value value', beq_iff_eq, Option.some.injEq, compare_eq_iff_eq]

/-! ## Signs -/

/-- A finite double can be packed with any sign. -/
theorem unpack_pack_of_finite {x : Float} {s : Sign} {m : ℕ} {e : ℤ} {positive : 0 < m}
    (finite : x.toModel.unpack = .finite s m e positive) (s' : Sign) :
    (Float.Model.pack (.finite s' m e positive)).unpack = .finite s' m e positive := by
  obtain ⟨canonical, most, -⟩ := Binary.canonical_of_unpack finite
  have kept := canonical.unpack_pack (s := s') most
  rwa [Binary.assemble_of_pos positive] at kept

/-- Negating a double negates what it is unpacked as. -/
theorem unpack_neg (x : Float) : (-x).toModel.unpack = x.toModel.unpack.neg := by
  show (Float.Model.pack x.toModel.unpack.neg).unpack = _
  cases unpacked : x.toModel.unpack with
  | notANumber => rfl
  | infinity s | zero s => cases s <;> rfl
  | finite s m e positive => exact unpack_pack_of_finite unpacked _

/-- The magnitude of a double is unpacked as that of what the double is unpacked as. -/
theorem unpack_abs (x : Float) : x.abs.toModel.unpack = x.toModel.unpack.abs := by
  show (Float.Model.pack x.toModel.unpack.abs).unpack = _
  cases unpacked : x.toModel.unpack with
  | notANumber => rfl
  | infinity s | zero s => cases s <;> rfl
  | finite s m e positive => exact unpack_pack_of_finite unpacked _

/-- The opposite of a double has the opposite value. -/
theorem value?_neg (x : Float) : value? (-x) = (value? x).map (-·) := by
  cases unpacked : x.toModel.unpack with
  | notANumber | infinity s =>
    have opposite := unpack_neg x
    rw [unpacked] at opposite
    rw [value?, value?, Binary.ofFloat, Binary.ofFloat, unpacked, opposite]
    rfl
  | zero s =>
    rw [value?_of_zero unpacked, value?_of_zero (s := -s) (by rw [unpack_neg, unpacked]; rfl),
      Option.map_some, neg_zero]
  | finite s m e positive =>
    have opposite : (-x).toModel.unpack = .finite (-s) m e positive := by
      rw [unpack_neg, unpacked]
      rfl
    rw [value?_of_finite unpacked, value?_of_finite opposite]
    cases s with
    | positive => rfl
    | negative => exact congrArg some (neg_neg _).symm

/-- A double without its sign has the value without its sign. -/
theorem value?_abs {x : Float} {q : ℚ} (value : value? x = some q) : value? x.abs = some |q| := by
  obtain ⟨s, zero⟩ | ⟨s, m, e, positive, finite⟩ := of_value? value
  · rw [value?_of_zero zero, Option.some.injEq] at value
    rw [value?_of_zero (s := .positive) (by rw [unpack_abs, zero]; rfl), ← value, abs_zero]
  · have size : (0 : ℚ) < m * 2 ^ e := by positivity
    rw [value?_of_finite finite, Option.some.injEq] at value
    rw [value?_of_finite (s := .positive) (by rw [unpack_abs, finite]; rfl), ← value]
    cases s with
    | positive => exact congrArg some (abs_of_pos size).symm
    | negative => exact congrArg some ((abs_neg _).trans (abs_of_pos size)).symm

end Number

end NumberedBasic
