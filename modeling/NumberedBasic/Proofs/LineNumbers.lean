import NumberedBasic.Listing
import NumberedBasic.Proofs.ListingRoundTrip
import NumberedBasic.Proofs.Numerals
import NumberedBasic.Proofs.TokenShape

/-!
# Line numbers that are entered and line numbers that are targets

The number of a line is taken off its text, before anything is scanned, and the target of a jump is
read from a token. Both have the same range (`lineNumbers_entered_as_targeted`). A line whose number
is refused starts with a number token as soon as it starts with a digit, and the digits of that
token, if there is nothing else in it, are those that were refused (`takeNumber_eq_of_digits`). So
this token is never a line number either.
-/

set_option autoImplicit false

namespace NumberedBasic

namespace Token

open Decimal (denoted value_eq_denoted)

/-! ## Digits -/

section Digits

variable {gaps ds rest : List Char}

/-- Digits in front of a line are its number exactly if what they denote is not beyond the largest
one. -/
theorem lineNumberOfDigits?_eq (full : ds ≠ []) :
    lineNumberOfDigits? ds = if denoted ds ≤ maxLineNumber then some (denoted ds) else none := by
  simp [lineNumberOfDigits?, full, value_eq_denoted]

/-- The fault of digits that are beyond the largest line number. -/
def tooLarge : Fault :=
  { code := .overflow, detail := "INVALID LINE NUMBER" }

/-- As a target, digits are the line number that they are in front of a line, and too large if they
are none there. -/
theorem lineNumber_number (digits : ∀ d ∈ ds, d.isDigit = true) :
    (number (String.ofList ds)).lineNumber =
      (lineNumberOfDigits? ds).elim (.error tooLarge) .ok := by
  have all : ds.all Char.isDigit = true := List.all_eq_true.mpr digits
  cases found : lineNumberOfDigits? ds with
  | none =>
    simp only [lineNumber, String.toList_ofList, all, if_true, found]
    rfl
  | some n =>
    simp only [lineNumber, String.toList_ofList, all, if_true, found]
    rfl

/-- The number of a line is read from the digits behind the gaps at its front. -/
theorem takeLineNumber_append (blank : ∀ c ∈ gaps, isGap c = true) (full : ds ≠ [])
    (digits : ∀ d ∈ ds, d.isDigit = true) (stop : digitAhead rest = false) :
    (takeLineNumber (gaps ++ ds ++ rest)).1 = lineNumberOfDigits? ds := by
  obtain ⟨taken, left⟩ := span_append digits stop
  have body : (gaps ++ ds ++ rest).dropWhile isGap = ds ++ rest := by
    obtain ⟨d, ds, rfl⟩ := List.exists_cons_of_ne_nil full
    have solid : ¬isGap d = true := by
      intro gap
      have digit := digits d List.mem_cons_self
      rw [isDigit_of_isGap gap] at digit
      cases digit
    rw [List.append_assoc, List.dropWhile_append_of_pos blank, List.cons_append,
      List.dropWhile_cons_of_neg solid]
  cases found : lineNumberOfDigits? ds with
  | none => simp only [takeLineNumber, body, taken, found]
  | some n =>
    simp only [takeLineNumber, body, taken, left, found]
    split <;> rfl

end Digits

/-! ## The first token of a line -/

/-- A number without a point and an exponent is the digits at the front of the text. -/
theorem takeNumber_eq_of_digits {pointed : Bool} {cs : List Char}
    (digits : ∀ d ∈ (takeNumber pointed cs).1, d.isDigit = true) :
    (takeNumber pointed cs).1 = cs.takeWhile Char.isDigit := by
  induction cs generalizing pointed with
  | nil => rfl
  | cons c cs ih =>
    unfold takeNumber at digits ⊢
    split at digits
    · next digit =>
      rw [if_pos digit, List.takeWhile_cons_of_pos digit]
      exact congrArg (c :: ·) (ih fun d member => digits d (List.mem_cons_of_mem c member))
    · next other =>
      split at digits
      · exact absurd (digits c List.mem_cons_self) other
      · next noPoint =>
        rw [if_neg other, if_neg noPoint, List.takeWhile_cons_of_neg other]
        obtain ⟨-, -, none | mark⟩ := takeExponent_fst (c :: cs)
        · exact none
        · exact absurd (digits 'E' (List.mem_of_head? mark)) (by decide)

/-- A number token is taken from where no blank stands, and as far as a number goes. -/
theorem takes_number {mode m : Mode} {c : Char} {cs rest : List Char} {s : String}
    (takes : Takes mode c cs (.number s) m rest) :
    isGap c = false ∧ s = String.ofList (takeNumber false (c :: cs)).1 := by
  cases takes with
  | number number =>
    refine ⟨?_, rfl⟩
    rw [Bool.eq_false_iff]
    intro gap
    rw [isDigit_of_isGap gap, Bool.false_or, beq_iff_eq] at number
    subst number
    cases gap
  | name alpha taken => cases isSpelled_of_takeName taken
  | symbol _ _ _ _ spelled => cases isSpelled_of_ofSpelling? spelled

/-- If the first token of a text that is no blank is a number, it is the one behind the gaps at the
front of the text. -/
theorem first_number_of_scan {cs : List Char} {us : List Token} {s : String}
    (left : trimEnd (scan .statements cs) = us)
    (first : (us ++ [endOfLine]).find? isSolid = some (.number s)) :
    s = String.ofList (takeNumber false (cs.dropWhile isGap)).1 := by
  induction us generalizing cs with
  | nil => cases first
  | cons t us ih =>
    have trimmed := trimmed_scan .statements cs
    rw [left] at trimmed
    cases trimmed with
    | @token _ m c cs rest t takes plain inner =>
      rw [List.cons_append, List.find?_cons] at first
      cases solid : t.isSolid with
      | true =>
        rw [solid] at first
        cases first
        obtain ⟨noGap, same⟩ := takes_number takes
        rwa [List.dropWhile_cons_of_neg (by simp [noGap])]
      | false =>
        rw [solid] at first
        cases t with
        | blank w =>
          obtain ⟨-, gap, rfl, rfl, -⟩ := takes_blank takes
          rw [List.dropWhile_cons_of_pos gap, ← List.dropWhile_idempotent isGap cs]
          exact ih rfl first
        | _ => cases solid

/-- A number that stands first when tokens are joined has stood first before. -/
theorem Joins.first_number {W us : List Token} {s : String} (joins : Joins W us)
    (first : us.find? isSolid = some (.number s)) : W.find? isSolid = some (.number s) := by
  induction joins with
  | nil => cases first
  | go spelled more ih =>
    obtain ⟨-, -, ⟨-, rfl⟩ | ⟨-, rfl⟩⟩ := goWord?_eq_some spelled <;> cases first
  | signs spelled more ih =>
    obtain ⟨op, rfl⟩ := operator_of_relation? spelled
    cases first
  | @keep a ts us whole noGo noSigns more ih =>
    rw [List.find?_cons] at first ⊢
    cases solid : a.isSolid with
    | true => rwa [solid] at first
    | false =>
      rw [solid] at first
      exact ih first

/-- A line has no number because the digits behind the gaps at its front are none, and then nothing
is taken off it. -/
theorem of_takeLineNumber_eq_none {cs : List Char} (unnumbered : (takeLineNumber cs).1 = none) :
    (takeLineNumber cs).2 = cs ∧
      lineNumberOfDigits? ((cs.dropWhile isGap).takeWhile Char.isDigit) = none := by
  cases found : lineNumberOfDigits? ((cs.dropWhile isGap).takeWhile Char.isDigit) with
  | none =>
    simp only [takeLineNumber, found, and_self]
  | some n =>
    simp only [takeLineNumber, found] at unnumbered
    split at unnumbered <;> cases unnumbered

/-- In a line without a number, a number that stands first is taken from the first characters that
are not blank. -/
theorem first_number_of_scanLine {cs : List Char} {s : String}
    (unnumbered : (scanLine cs).1 = none)
    (first : (scanLine cs).2.find? isSolid = some (.number s)) :
    s = String.ofList (takeNumber false (cs.dropWhile isGap)).1 := by
  obtain ⟨whole, -⟩ := of_takeLineNumber_eq_none unnumbered
  rw [scanLine_eq] at first
  have scanned := (joins_scan .statements (takeLineNumber cs).2).first_number first
  rw [whole] at scanned
  exact first_number_of_scan rfl scanned

/-- The first token of a line without a number, blanks aside, is no line number. -/
theorem lineNumber_of_unnumbered {cs : List Char} {t : Token} (unnumbered : (scanLine cs).1 = none)
    (first : (scanLine cs).2.find? isSolid = some t) : ∃ fault, t.lineNumber = .error fault := by
  cases t with
  | number s =>
    have same := first_number_of_scanLine unnumbered first
    by_cases digits : ∀ d ∈ (takeNumber false (cs.dropWhile isGap)).1, d.isDigit = true
    · obtain ⟨-, refused⟩ := of_takeLineNumber_eq_none unnumbered
      rw [same, lineNumber_number digits, takeNumber_eq_of_digits digits, refused]
      exact ⟨_, rfl⟩
    · have other : ¬s.toList.all Char.isDigit = true := by
        rwa [same, String.toList_ofList, List.all_eq_true]
      exact ⟨_, if_neg other⟩
  | _ => exact ⟨_, rfl⟩

end Token

namespace Listing

open Token (isSolid)

/-- A literal at the front of a line without a number is what the line is refused for. -/
theorem unnumberedFault_eq {line : Line} {t : Token} {fault : Fault}
    (first : line.tokens.find? isSolid = some t) (literal : ∃ s, t = .number s ∨ t = .string s)
    (refused : t.lineNumber = .error fault) : unnumberedFault line = fault := by
  unfold unnumberedFault
  dsimp only
  split
  · next s found =>
    obtain rfl := Option.some.inj (found.symm.trans first)
    rw [refused]
  · next s found =>
    obtain rfl := Option.some.inj (found.symm.trans first)
    exact Except.error.inj refused
  · next noNumber noString =>
    obtain ⟨s, rfl | rfl⟩ := literal
    · exact absurd first (noNumber s)
    · exact absurd first (noString s)

end Listing

/-- A target is read from a token as the token says. -/
theorem Lexeme.lineNumber_eq_ok_iff {t : Token} {column : Span} {more : List Lexeme}
    {n : LineNumber} :
    lineNumber (⟨t, column⟩ :: more) = .ok (n, more) ↔ t.lineNumber = .ok n := by
  cases read : t.lineNumber with
  | ok m => simp [lineNumber, read]
  | error fault => simp [lineNumber, read]

/-- At a token a target is read as the token says, and the token is taken. -/
theorem Reader.exists_lineNumber_iff {cursor : Cursor} {t : Token} {column : Span}
    {more : List Lexeme} {n : LineNumber} (ahead : cursor.ahead = ⟨t, column⟩ :: more) :
    (∃ cursor', lineNumber cursor = (.ok n, cursor') ∧ cursor'.ahead = more) ↔
      t.lineNumber = .ok n := by
  have follows := reads_lineNumber (Cursor.before_ahead cursor)
  rw [ahead] at follows
  constructor
  · rintro ⟨cursor', read, rfl⟩
    exact Lexeme.lineNumber_eq_ok_iff.mp (read ▸ follows).eq_ok
  · intro given
    rw [Lexeme.lineNumber_eq_ok_iff.mpr given] at follows
    exact follows.exists_ok

namespace Token

open Decimal (denoted)

/-- Digits are entered as the number of a line exactly if they can be the target of a jump, and that
is if they denote a number that is not beyond the largest one. Where a line has no number, the token
it starts with is no line number, and if that is a literal the line is refused for it. -/
theorem lineNumbers_entered_as_targeted :
    (∀ gaps ds rest : List Char, (∀ c ∈ gaps, isGap c = true) → ds ≠ [] →
      (∀ d ∈ ds, d.isDigit = true) → digitAhead rest = false →
        (∀ n, (scanLine (gaps ++ ds ++ rest)).1 = some n ↔
          (number (String.ofList ds)).lineNumber = .ok n) ∧
        (∀ n, (number (String.ofList ds)).lineNumber = .ok n ↔ denoted ds = n ∧ n ≤ 65529) ∧
        (∀ n (cursor : Cursor) column more,
          cursor.ahead = ⟨number (String.ofList ds), column⟩ :: more →
            ((∃ cursor', Reader.lineNumber cursor = (.ok n, cursor') ∧ cursor'.ahead = more) ↔
              denoted ds = n ∧ n ≤ 65529)) ∧
        (65529 < denoted ds → (scanLine (gaps ++ ds ++ rest)).1 = none ∧
          (number (String.ofList ds)).lineNumber = .error tooLarge)) ∧
    (∀ (text : String) (t : Token), (Line.ofText text).number = none →
      (Line.ofText text).tokens.find? isSolid = some t →
        ∃ fault, t.lineNumber = .error fault ∧
          ((∃ s, t = .number s ∨ t = .string s) →
            Listing.unnumberedFault (Line.ofText text) = fault)) := by
  refine ⟨fun gaps ds rest blank full digits stop => ?_, fun text t unnumbered first => ?_⟩
  · have entered : (scanLine (gaps ++ ds ++ rest)).1 = lineNumberOfDigits? ds :=
      takeLineNumber_append blank full digits stop
    have targeted := lineNumber_number digits
    -- Both readers go by the same digits, so that all is settled once it is known which of these
    -- are in range.
    have range : lineNumberOfDigits? ds = if denoted ds ≤ 65529 then some (denoted ds) else none :=
      lineNumberOfDigits?_eq full
    have within : ∀ n, (number (String.ofList ds)).lineNumber = .ok n ↔
        denoted ds = n ∧ n ≤ 65529 := by
      intro n
      rw [targeted, range]
      by_cases small : denoted ds ≤ 65529
      · rw [if_pos small, Option.elim_some, Except.ok.injEq]
        constructor
        · rintro rfl
          exact ⟨rfl, small⟩
        · exact And.left
      · rw [if_neg small, Option.elim_none]
        simp only [reduceCtorEq, false_iff]
        rintro ⟨rfl, bound⟩
        exact small bound
    refine ⟨fun n => ?_, within, fun n cursor column more ahead => ?_, fun large => ?_⟩
    · rw [entered, targeted]
      cases lineNumberOfDigits? ds <;> simp
    · rw [Reader.exists_lineNumber_iff ahead, within]
    · rw [entered, targeted, range, if_neg (Nat.not_le.mpr large)]
      exact ⟨rfl, rfl⟩
  · obtain ⟨fault, refused⟩ := lineNumber_of_unnumbered unnumbered first
    exact ⟨fault, refused, fun literal => Listing.unnumberedFault_eq first literal refused⟩

/-- The largest line number and the first one beyond it, in front of a line and as a target. -/
theorem lineNumbers_entered_as_targeted_limits :
    (scanLine [' ', '\t', '0', '6', '5', '5', '2', '9', '.', '5']).1 = some 65529 ∧
      (number "065529").lineNumber = .ok 65529 ∧
      (scanLine ['6', '5', '5', '3', '0', 'E', '2']).1 = none ∧
      (number "65530").lineNumber = .error tooLarge ∧
      Listing.unnumberedFault (Line.ofText " 65530 END") = tooLarge := by
  obtain ⟨digits, lines⟩ := lineNumbers_entered_as_targeted
  obtain ⟨same, range, -⟩ := digits [' ', '\t'] ['0', '6', '5', '5', '2', '9'] ['.', '5']
    (List.all_eq_true.mp rfl) (by simp) (List.all_eq_true.mp rfl) rfl
  obtain ⟨-, -, -, beyond⟩ := digits [] ['6', '5', '5', '3', '0'] ['E', '2'] (by simp) (by simp)
    (List.all_eq_true.mp rfl) rfl
  obtain ⟨unnumbered, refused⟩ := beyond (by decide)
  obtain ⟨fault, failed, shown⟩ := lines " 65530 END" (.number "65530") (by decide +kernel)
    (by decide +kernel)
  have largest := (range 65529).mpr ⟨by decide, by decide⟩
  refine ⟨(same 65529).mpr largest, largest, unnumbered, refused, ?_⟩
  rw [shown ⟨_, .inl rfl⟩]
  exact Except.error.inj (failed.symm.trans refused)

end Token

end NumberedBasic
