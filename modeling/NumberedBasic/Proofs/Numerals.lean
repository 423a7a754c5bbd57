import Mathlib.Data.Nat.Digits.Defs
import NumberedBasic.Number
import NumberedBasic.Proofs.Rescanning

/-!
# The grammar of numerals

A numeral is an optional sign, a mantissa with at least one digit and at most one point, and an
optional exponent (`Spells`). The grammar is stated apart from the functions that read it, and the
double that a numeral writes is the one nearest to its decimal (`Writes`). A text that is all marks
is read exactly if it is such a numeral (`plain?_eq_some_iff`).
-/

set_option autoImplicit false

namespace NumberedBasic

namespace Decimal

/-- The number that decimal digits denote, the most significant one first. -/
def denoted (ds : List Char) : ℕ :=
  Nat.ofDigits 10 (ds.reverse.map fun d => d.toNat - '0'.toNat)

/-- The running value of digits is the number that they denote. -/
theorem value_eq_denoted (ds : List Char) : value ds = denoted ds := by
  unfold denoted value
  rw [Nat.ofDigits_eq_foldr, List.foldr_map, List.foldr_reverse]
  congr 1
  funext n d
  exact Nat.add_comm _ _

end Decimal

namespace Numeral

open Decimal (denoted value_eq_denoted)
open Token (span_append any_head?_dropWhile)

/-! ## The grammar -/

/-- An optional sign, and whether it is a minus. -/
inductive Signed : List Char → Bool → Prop
  | none : Signed [] false
  | plus : Signed ['+'] false
  | minus : Signed ['-'] true

/-- Digits with at most one point among or beside them, and the decimal they stand for. There need
not be a digit. -/
inductive Mantissa : List Char → Decimal → Prop
  | whole {ds : List Char} (digits : ∀ d ∈ ds, d.isDigit = true) : Mantissa ds ⟨denoted ds, 0⟩
  | pointed {ds fs : List Char} (digits : ∀ d ∈ ds, d.isDigit = true)
    (fraction : ∀ d ∈ fs, d.isDigit = true) :
    Mantissa (ds ++ '.' :: fs) ⟨denoted (ds ++ fs), -fs.length⟩

/-- An optional exponent and the power of ten it stands for. -/
inductive Exponent : List Char → ℤ → Prop
  | none : Exponent [] 0
  | power {mark : Char} {sign ds : List Char} {negative : Bool} (marked : mark = 'e' ∨ mark = 'E')
    (signed : Signed sign negative) (full : ds ≠ []) (digits : ∀ d ∈ ds, d.isDigit = true) :
    Exponent (mark :: sign ++ ds) (if negative then -(denoted ds : ℤ) else denoted ds)

/-- A numeral, whether it has a minus sign, and the decimal it stands for without its sign. -/
inductive Spells : List Char → Bool → Decimal → Prop
  | intro {sign mantissa exponent : List Char} {negative : Bool} {size : Decimal} {power : ℤ}
    (signed : Signed sign negative) (shaped : Mantissa mantissa size)
    (digit : mantissa.any Char.isDigit = true) (scaled : Exponent exponent power) :
    Spells (sign ++ mantissa ++ exponent) negative ⟨size.digits, size.exponent + power⟩

/-- The double with a given sign that is nearest to a decimal. -/
def nearest (negative : Bool) (d : Decimal) : Float :=
  if negative then -d.toFloat else d.toFloat

/-- A text is a numeral for a double. -/
def Writes (cs : List Char) (x : Float) : Prop :=
  ∃ negative d, Spells cs negative d ∧ x = nearest negative d

/-! ## Signs and exponents -/

/-- Whether a character is the sign of a number. -/
def isSign (c : Char) : Bool :=
  c == '+' || c == '-'

/-- A text that does not start with a sign is not negative, and nothing is taken off it. -/
theorem sign_of_plain {cs : List Char} (plain : cs.head?.any isSign = false) :
    sign cs = (false, cs) := by
  unfold sign
  split
  · cases plain
  · cases plain
  · rfl

/-- A sign in front of a text without one is read as that sign, and the text is left. -/
theorem sign_append {s cs : List Char} {negative : Bool} (signed : Signed s negative)
    (plain : cs.head?.any isSign = false) : sign (s ++ cs) = (negative, cs) := by
  cases signed with
  | none => exact sign_of_plain plain
  | plus => rfl
  | minus => rfl

/-- What is read as a sign is one, and stands in front. -/
theorem exists_signed (cs : List Char) : ∃ s, cs = s ++ (sign cs).2 ∧ Signed s (sign cs).1 := by
  unfold sign
  split
  · exact ⟨['-'], rfl, .minus⟩
  · exact ⟨['+'], rfl, .plus⟩
  · exact ⟨[], rfl, .none⟩

/-- A digit is no sign. -/
theorem isSign_of_isDigit {c : Char} (digit : c.isDigit = true) : isSign c = false := by
  rw [isSign, Bool.or_eq_false_iff, beq_eq_false_iff_ne, beq_eq_false_iff_ne]
  constructor <;> rintro rfl <;> cases digit

/-- The reader of exponents accepts exponents and nothing else, with the powers they stand for. -/
theorem exponent?_eq_some_iff {cs : List Char} {p : ℤ} : exponent? cs = some p ↔ Exponent cs p := by
  constructor
  · intro read
    cases cs with
    | nil =>
      cases read
      exact .none
    | cons mark cs =>
      obtain ⟨s, split, signed⟩ := exists_signed cs
      simp only [exponent?, Option.ite_none_right_eq_some, Bool.and_eq_true, Bool.or_eq_true,
        beq_iff_eq, Bool.not_eq_true', List.isEmpty_eq_false_iff, List.all_eq_true,
        Option.some.injEq] at read
      obtain ⟨⟨⟨marked, full⟩, digits⟩, rfl⟩ := read
      have power := Exponent.power marked signed full digits
      rw [List.cons_append, ← split] at power
      rwa [value_eq_denoted]
  · intro exponent
    cases exponent with
    | none => rfl
    | @power mark s ds negative marked signed full digits =>
      have plain : ds.head?.any isSign = false := by
        obtain ⟨d, ds, rfl⟩ := List.exists_cons_of_ne_nil full
        exact isSign_of_isDigit (digits d List.mem_cons_self)
      simp only [List.cons_append, exponent?, sign_append signed plain]
      rw [if_pos, value_eq_denoted]
      simpa [full, marked] using digits

/-! ## Mantissas -/

/-- What follows a mantissa does not continue it. -/
def Stops (mantissa rest : List Char) : Prop :=
  rest.head?.any Char.isDigit = false ∧ ('.' ∉ mantissa → rest.head? ≠ some '.')

/-- An exponent ends the mantissa before it. -/
theorem Exponent.stops {ex : List Char} {p : ℤ} (exponent : Exponent ex p) (m : List Char) :
    Stops m ex := by
  cases exponent with
  | none => exact ⟨rfl, nofun⟩
  | power marked => rcases marked with rfl | rfl <;> exact ⟨rfl, fun _ => by simp⟩

/-- Digits have a digit among them unless there are none. -/
theorem any_isDigit_eq {ds : List Char} (digits : ∀ d ∈ ds, d.isDigit = true) :
    ds.any Char.isDigit = !ds.isEmpty := by
  cases ds with
  | nil => rfl
  | cons d ds => simp [digits d List.mem_cons_self]

/-- A text with a digit is not empty. -/
theorem ne_nil_of_any_isDigit {m : List Char} (digit : m.any Char.isDigit = true) : m ≠ [] := by
  rintro rfl
  cases digit

/-- A mantissa ends where neither a digit nor a first point follows. -/
theorem decimal?_append {m rest : List Char} {size : Decimal} (mantissa : Mantissa m size)
    (stops : Stops m rest) :
    decimal? (m ++ rest) =
      if m.any Char.isDigit then
        (exponent? rest).map fun power => ⟨size.digits, size.exponent + power⟩
      else none := by
  cases mantissa with
  | whole digits =>
    obtain ⟨taken, left⟩ := span_append digits stops.1
    have noPoint : rest.head? ≠ some '.' :=
      stops.2 fun point => absurd (digits '.' point) (by decide)
    simp only [decimal?, taken, left, any_isDigit_eq digits]
    split
    · exact absurd rfl noPoint
    · cases m <;> simp [value_eq_denoted]
  | @pointed ds fs digits fraction =>
    obtain ⟨taken, left⟩ : (ds ++ '.' :: (fs ++ rest)).takeWhile Char.isDigit = ds ∧
        (ds ++ '.' :: (fs ++ rest)).dropWhile Char.isDigit = '.' :: (fs ++ rest) :=
      span_append digits rfl
    obtain ⟨taken', left'⟩ := span_append fraction stops.1
    simp only [List.append_assoc, List.cons_append, decimal?, taken, left, taken', left',
      List.any_append, List.any_cons, any_isDigit_eq digits, any_isDigit_eq fraction]
    cases ds <;> cases fs <;> simp [value_eq_denoted, sub_eq_neg_add]

/-- Digits that are taken off the front are digits. -/
theorem isDigit_of_mem_takeWhile (cs : List Char) :
    ∀ d ∈ cs.takeWhile Char.isDigit, d.isDigit = true :=
  fun _ => List.mem_takeWhile_imp

/-- Every text starts with a mantissa. -/
theorem exists_mantissa (cs : List Char) :
    ∃ m rest size, cs = m ++ rest ∧ Mantissa m size ∧ Stops m rest := by
  have stop := any_head?_dropWhile Char.isDigit cs
  have split : cs = cs.takeWhile Char.isDigit ++ cs.dropWhile Char.isDigit :=
    List.takeWhile_append_dropWhile.symm
  by_cases point : (cs.dropWhile Char.isDigit).head? = some '.'
  · obtain ⟨after, rest⟩ := List.head?_eq_some_iff.mp point
    refine ⟨_, after.dropWhile Char.isDigit, _, ?_, .pointed (isDigit_of_mem_takeWhile cs)
      (isDigit_of_mem_takeWhile after), ?_⟩
    · rw [rest] at split
      rw [List.append_assoc, List.cons_append, List.takeWhile_append_dropWhile, ← split]
    · exact ⟨any_head?_dropWhile Char.isDigit after, fun none => absurd (by simp) none⟩
  · exact ⟨_, _, _, split, .whole (isDigit_of_mem_takeWhile cs), stop, fun _ => point⟩

/-- The reader of unsigned decimals accepts a mantissa that has a digit, with an exponent or
without, and nothing else. -/
theorem decimal?_eq_some_iff {cs : List Char} {d : Decimal} :
    decimal? cs = some d ↔ ∃ m ex size power, cs = m ++ ex ∧ Mantissa m size ∧
      m.any Char.isDigit = true ∧ Exponent ex power ∧ d = ⟨size.digits, size.exponent + power⟩ := by
  constructor
  · intro read
    obtain ⟨m, rest, size, rfl, mantissa, stops⟩ := exists_mantissa cs
    rw [decimal?_append mantissa stops, Option.ite_none_right_eq_some,
      Option.map_eq_some_iff] at read
    obtain ⟨digit, power, exponent, rfl⟩ := read
    exact ⟨m, rest, size, power, rfl, mantissa, digit, exponent?_eq_some_iff.mp exponent, rfl⟩
  · rintro ⟨m, ex, size, power, rfl, mantissa, digit, exponent, rfl⟩
    rw [decimal?_append mantissa (exponent.stops m), if_pos digit,
      exponent?_eq_some_iff.mpr exponent, Option.map_some]

/-! ## Whole numerals -/

/-- A sign is made of characters of numerals. -/
theorem Signed.marks {cs : List Char} {negative : Bool} (signed : Signed cs negative) :
    cs.all isMark = true := by
  cases signed <;> decide

/-- Digits are characters of numerals. -/
theorem all_isMark_of_digits {ds : List Char} (digits : ∀ d ∈ ds, d.isDigit = true) :
    ds.all isMark = true := by
  rw [List.all_eq_true]
  intro d member
  simp [isMark, digits d member]

/-- An exponent is made of characters of numerals. -/
theorem Exponent.marks {ex : List Char} {p : ℤ} (exponent : Exponent ex p) :
    ex.all isMark = true := by
  cases exponent with
  | none => rfl
  | power marked signed full digits =>
    rw [List.cons_append, List.all_cons, List.all_append, signed.marks, all_isMark_of_digits digits]
    rcases marked with rfl | rfl <;> decide

/-- A mantissa has digits and points only. -/
theorem Mantissa.of_mem {m : List Char} {size : Decimal} {c : Char} (mantissa : Mantissa m size)
    (member : c ∈ m) : c.isDigit = true ∨ c = '.' := by
  cases mantissa with
  | whole digits => exact .inl (digits c member)
  | pointed digits fraction =>
    simp only [List.mem_append, List.mem_cons] at member
    rcases member with front | rfl | behind
    · exact .inl (digits c front)
    · exact .inr rfl
    · exact .inl (fraction c behind)

/-- A mantissa is made of characters of numerals. -/
theorem Mantissa.marks {m : List Char} {size : Decimal} (mantissa : Mantissa m size) :
    m.all isMark = true := by
  rw [List.all_eq_true]
  intro c member
  rcases mantissa.of_mem member with digit | rfl
  · simp [isMark, digit]
  · rfl

/-- A mantissa with its exponent is made of characters of numerals. -/
theorem Mantissa.marks_append {m ex : List Char} {size : Decimal} {p : ℤ}
    (mantissa : Mantissa m size) (exponent : Exponent ex p) : (m ++ ex).all isMark = true := by
  rw [List.all_append, mantissa.marks, exponent.marks]
  rfl

/-- A mantissa with another digit in front is a mantissa. -/
theorem Mantissa.cons {m : List Char} {size : Decimal} {d : Char} (mantissa : Mantissa m size)
    (digit : d.isDigit = true) : ∃ size', Mantissa (d :: m) size' := by
  cases mantissa with
  | whole digits => exact ⟨_, .whole (List.forall_mem_cons.mpr ⟨digit, digits⟩)⟩
  | pointed digits fraction =>
    exact ⟨_, .pointed (List.forall_mem_cons.mpr ⟨digit, digits⟩) fraction⟩

/-- A mantissa starts with a digit or a point. -/
theorem Mantissa.head {m : List Char} {size : Decimal} (mantissa : Mantissa m size)
    (full : m ≠ []) : ∃ c more, m = c :: more ∧ (c.isDigit = true ∨ c = '.') := by
  obtain ⟨c, more, rfl⟩ := List.exists_cons_of_ne_nil full
  exact ⟨c, more, rfl, mantissa.of_mem List.mem_cons_self⟩

/-- A mantissa does not start with a sign. -/
theorem Mantissa.plain {m : List Char} {size : Decimal} (mantissa : Mantissa m size)
    (full : m ≠ []) (rest : List Char) : (m ++ rest).head?.any isSign = false := by
  obtain ⟨c, more, rfl, digit | rfl⟩ := mantissa.head full
  · exact isSign_of_isDigit digit
  · rfl

/-- No character of numerals starts the word for an undefined number. -/
theorem toLower_ne_of_isMark {c : Char} (mark : isMark c = true) : c.toLower ≠ 'n' := by
  cases digit : c.isDigit with
  | true =>
    have noLetter : ¬(c.val ≥ 'A'.val ∧ c.val ≤ 'Z'.val) := by
      simp only [Char.isDigit, Bool.and_eq_true, decide_eq_true_eq] at digit
      rintro ⟨letter, -⟩
      exact absurd (UInt32.le_trans letter digit.2) (by decide)
    delta Char.toLower
    rw [dif_neg noLetter]
    rintro rfl
    cases digit
  | false =>
    simp only [isMark, digit, Bool.false_or, Bool.or_eq_true, beq_iff_eq, or_assoc] at mark
    rcases mark with rfl | rfl | rfl | rfl | rfl <;> decide

/-- No word is all marks: each has an `n` in it. -/
theorem word?_of_marks {cs : List Char} (marks : cs.all isMark = true) : word? cs = none := by
  have without : 'n' ∉ (String.ofList (cs.map Char.toLower)).toList := by
    rw [String.toList_ofList, List.mem_map]
    rintro ⟨c, member, lower⟩
    exact toLower_ne_of_isMark (List.all_eq_true.mp marks c member) lower
  unfold word?
  dsimp only
  rw [if_neg, if_neg]
  · intro same
    rw [same] at without
    exact without (by decide)
  · rintro (same | same) <;> rw [same] at without <;> exact without (by decide)

/-- A text that is all marks is read without words. -/
theorem read?_of_marks {cs : List Char} (marks : cs.all isMark = true) :
    read? cs = (decimal? (sign cs).2).map (nearest (sign cs).1) := by
  have body : (sign cs).2.all isMark = true := by
    obtain ⟨s, split, -⟩ := exists_signed cs
    rw [split, List.all_append, Bool.and_eq_true] at marks
    exact marks.2
  unfold read?
  dsimp only
  rw [word?_of_marks body]
  cases decimal? (sign cs).2 <;> rfl

/-- The reader of numerals without words accepts the numerals for a double and nothing else. -/
theorem plain?_eq_some_iff {cs : List Char} {x : Float} : plain? cs = some x ↔ Writes cs x := by
  unfold plain?
  rw [Option.ite_none_right_eq_some]
  constructor
  · rintro ⟨marks, read⟩
    rw [read?_of_marks marks, Option.map_eq_some_iff] at read
    obtain ⟨d, read, rfl⟩ := read
    obtain ⟨m, ex, size, power, body, mantissa, digit, exponent, rfl⟩ :=
      decimal?_eq_some_iff.mp read
    obtain ⟨s, split, signed⟩ := exists_signed cs
    have spells := Spells.intro signed mantissa digit exponent
    rw [List.append_assoc, ← body, ← split] at spells
    exact ⟨_, _, spells, rfl⟩
  · rintro ⟨negative, d, ⟨signed, mantissa, digit, exponent⟩, rfl⟩
    rename_i s m ex size power
    have marks : (s ++ m ++ ex).all isMark = true := by
      rw [List.append_assoc, List.all_append, signed.marks, mantissa.marks_append exponent]
      rfl
    refine ⟨marks, ?_⟩
    rw [read?_of_marks marks, List.append_assoc,
      sign_append signed (mantissa.plain (ne_nil_of_any_isDigit digit) ex),
      decimal?_eq_some_iff.mpr ⟨m, ex, size, power, rfl, mantissa, digit, exponent, rfl⟩,
      Option.map_some]

/-- A text is a numeral for one double at most. -/
theorem Writes.unique {cs : List Char} {x y : Float} (first : Writes cs x) (second : Writes cs y) :
    x = y :=
  Option.some.inj ((plain?_eq_some_iff.mpr first).symm.trans (plain?_eq_some_iff.mpr second))

/-- A numeral is made of characters of numerals. -/
theorem Writes.marks {cs : List Char} {x : Float} (writes : Writes cs x) : cs.all isMark = true :=
  (Option.ite_none_right_eq_some.mp (plain?_eq_some_iff.mpr writes)).1

/-- A numeral is read as the double that it is written for. -/
theorem read?_of_writes {cs : List Char} {x : Float} (writes : Writes cs x) :
    read? cs = some x := by
  have read := plain?_eq_some_iff.mpr writes
  rwa [plain?, if_pos writes.marks] at read

/-- An empty text is no numeral. -/
theorem not_writes_nil (x : Float) : ¬Writes [] x := by
  rw [← plain?_eq_some_iff]
  nofun

end Numeral

/-! ## Numbers in a program -/

namespace Token

open Numeral (Mantissa Exponent)

/-- What the scanner takes for an exponent is one, with a capital mark. -/
theorem takeExponent_fst (cs : List Char) :
    ∃ p, Exponent (takeExponent cs).1 p ∧
      ((takeExponent cs).1 = [] ∨ (takeExponent cs).1.head? = some 'E') := by
  have digits := Numeral.isDigit_of_mem_takeWhile
  have full : ∀ ds : List Char, ds.head?.any Char.isDigit = true →
      ds.takeWhile Char.isDigit ≠ [] := by
    intro ds digit
    cases ds with
    | nil => cases digit
    | cons d ds => simp [List.takeWhile_cons_of_pos (show d.isDigit = true from digit)]
  unfold takeExponent
  split
  · next e c rest =>
    split
    · split
      · next digit =>
        exact ⟨_, .power (.inr rfl) .none (full (c :: rest) digit) (digits (c :: rest)), .inr rfl⟩
      · split
        · next signed =>
          simp only [Bool.and_eq_true, Bool.or_eq_true, beq_iff_eq] at signed
          obtain ⟨rfl | rfl, digit⟩ := signed
          · exact ⟨_, .power (.inr rfl) .plus (full rest digit) (digits rest), .inr rfl⟩
          · exact ⟨_, .power (.inr rfl) .minus (full rest digit) (digits rest), .inr rfl⟩
        · exact ⟨0, .none, .inl rfl⟩
    · exact ⟨0, .none, .inl rfl⟩
  · exact ⟨0, .none, .inl rfl⟩

/-- After its point a number goes on with digits and an exponent. -/
theorem takeNumber_true_fst (cs : List Char) :
    ∃ fs ex p, (takeNumber true cs).1 = fs ++ ex ∧ (∀ d ∈ fs, d.isDigit = true) ∧ Exponent ex p ∧
      (ex = [] ∨ ex.head? = some 'E') := by
  induction cs with
  | nil => exact ⟨[], [], 0, rfl, nofun, .none, .inl rfl⟩
  | cons c cs ih =>
    unfold takeNumber
    split
    · next digit =>
      obtain ⟨fs, ex, p, taken, digits, exponent, mark⟩ := ih
      refine ⟨c :: fs, ex, p, congrArg (c :: ·) taken, ?_, exponent, mark⟩
      exact List.forall_mem_cons.mpr ⟨digit, digits⟩
    · obtain ⟨p, exponent, mark⟩ := takeExponent_fst (c :: cs)
      rw [if_neg (by simp)]
      exact ⟨[], _, p, rfl, nofun, exponent, mark⟩

/-- A number in a program is a mantissa and an exponent. -/
theorem takeNumber_false_fst (cs : List Char) :
    ∃ m size ex p, (takeNumber false cs).1 = m ++ ex ∧ Mantissa m size ∧ Exponent ex p ∧
      (ex = [] ∨ ex.head? = some 'E') := by
  induction cs with
  | nil => exact ⟨[], _, [], 0, rfl, .whole nofun, .none, .inl rfl⟩
  | cons c cs ih =>
    unfold takeNumber
    split
    · next digit =>
      obtain ⟨m, size, ex, p, taken, mantissa, exponent, mark⟩ := ih
      obtain ⟨size', longer⟩ := mantissa.cons digit
      exact ⟨c :: m, size', ex, p, congrArg (c :: ·) taken, longer, exponent, mark⟩
    · split
      · next point =>
        obtain rfl : c = '.' := by simpa using point
        obtain ⟨fs, ex, p, taken, digits, exponent, mark⟩ := takeNumber_true_fst cs
        exact ⟨[] ++ '.' :: fs, _, ex, p, congrArg ('.' :: ·) taken, .pointed nofun digits,
          exponent, mark⟩
      · obtain ⟨p, exponent, mark⟩ := takeExponent_fst (c :: cs)
        exact ⟨[], _, _, p, rfl, .whole nofun, exponent, mark⟩

end Token

end NumberedBasic
