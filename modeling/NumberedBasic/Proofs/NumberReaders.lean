import NumberedBasic.Builtin
import NumberedBasic.Proofs.LastDefinition
import NumberedBasic.Proofs.Nearest
import NumberedBasic.Proofs.Numerals
import NumberedBasic.Proofs.TokenShape

/-!
# The readers of numbers agree

Numbers are read from replies and data items, which have to be numerals from end to end, by `VAL`,
which takes the longest numeral that a string starts with, and from the number tokens of a program.
All three read the numerals of one grammar, and give the double it says (`readers_agree`). What the
scanner takes for a number is a mantissa and an exponent, so the only tokens without a value are
those without a digit before the exponent (`read?_literal`).
-/

set_option autoImplicit false

namespace NumberedBasic

open Numeral (isMark Signed Mantissa Exponent Writes)

/-! ## Blanks around a numeral -/

namespace Text

/-- A blank may not stand in a numeral. -/
theorem isMark_of_isBlank {c : Char} (blank : isBlank c = true) : isMark c = false := by
  rw [isMark, isDigit_of_isBlank blank]
  simp only [Bool.false_or, Bool.or_eq_false_iff, beq_eq_false_iff_ne, ne_eq]
  refine ⟨⟨⟨⟨?_, ?_⟩, ?_⟩, ?_⟩, ?_⟩ <;> rintro rfl <;> cases blank

/-- What is taken off the end of a text stood there, and all of it has the property. -/
theorem exists_append_dropEndWhile (p : Char → Bool) (cs : List Char) :
    ∃ dropped, cs = dropEndWhile p cs ++ dropped ∧ ∀ c ∈ dropped, p c = true := by
  refine ⟨(cs.reverse.takeWhile p).reverse, ?_, ?_⟩
  · rw [dropEndWhile, ← List.reverse_append, List.takeWhile_append_dropWhile, List.reverse_reverse]
  · intro c member
    exact List.mem_takeWhile_imp (List.mem_reverse.mp member)

/-- A text of marks between blanks ends where the marks do. -/
theorem takeWhile_isMark_of_trim {cs : List Char} (marks : (trim cs).all isMark = true) :
    (trimStart cs).takeWhile isMark = trim cs := by
  obtain ⟨blanks, split, blank⟩ := exists_append_dropEndWhile isBlank (trimStart cs)
  have stop : blanks.head?.any isMark = false := by
    cases blanks with
    | nil => rfl
    | cons c blanks => exact isMark_of_isBlank (blank c List.mem_cons_self)
  conv_lhs => rw [split]
  exact (Token.span_append (List.all_eq_true.mp marks) stop).1

/-- Marks have no blanks to trim. -/
theorem trim_of_marks {cs : List Char} (marks : cs.all isMark = true) : trim cs = cs := by
  have solid : ∀ c ∈ cs, ¬isBlank c = true := by
    intro c member blank
    have mark := List.all_eq_true.mp marks c member
    rw [isMark_of_isBlank blank] at mark
    cases mark
  have keep : ∀ ds : List Char, (∀ c ∈ ds, ¬isBlank c = true) → ds.dropWhile isBlank = ds := by
    intro ds solid
    cases ds with
    | nil => rfl
    | cons c ds => exact List.dropWhile_cons_of_neg (solid c List.mem_cons_self)
  rw [trim, trimStart, keep cs solid, trimEnd, dropEndWhile, keep cs.reverse, List.reverse_reverse]
  intro c member
  exact solid c (List.mem_reverse.mp member)

end Text

namespace Number

open Text (trim trimStart)

/-- A reply or a data item is a numeral between blanks, or there is nothing but blanks. -/
theorem ofField?_eq_some_iff {cs : List Char} {x : Float} :
    ofField? cs = some x ↔ trim cs = [] ∧ x = 0.0 ∨ Writes (trim cs) x := by
  unfold ofField?
  dsimp only
  cases empty : trim cs with
  | nil => simp [Numeral.not_writes_nil, eq_comm]
  | cons c cs => simp [Numeral.plain?_eq_some_iff]

/-! ## The numeral at the front of a text -/

/-- A numeral that a text starts with, and no longer one does. -/
structure LongestNumeral (text front : List Char) : Prop where
  starts : front <+: text
  numeral : ∃ x, Writes front x
  longest : ∀ other, other <+: text → (∃ x, Writes other x) → other.length ≤ front.length

/-- A loop that overwrites its result ends with the last one there is. -/
theorem foldl_overwrite {β : Type} (f : ℕ → Option β) (start : β) (n : ℕ) :
    let last := (List.range (n + 1)).foldl (fun best k => (f k).getD best) start
    (∃ k ≤ n, f k = some last ∧ ∀ j ≤ n, k < j → f j = none) ∨
      (∀ j ≤ n, f j = none) ∧ last = start := by
  induction n with
  | zero =>
    cases first : f 0 with
    | some x => exact .inl ⟨0, le_rfl, by simp [first], by omega⟩
    | none => exact .inr ⟨fun j small => by rwa [Nat.le_zero.mp small], by simp [first]⟩
  | succ n ih =>
    intro last
    have step : last = (f (n + 1)).getD
        ((List.range (n + 1)).foldl (fun best k => (f k).getD best) start) := by
      simp only [last]
      rw [List.range_succ, List.foldl_append]
      rfl
    rw [step]
    cases now : f (n + 1) with
    | some x => exact .inl ⟨n + 1, le_rfl, now, by omega⟩
    | none =>
      rcases ih with ⟨k, within, result, beyond⟩ | ⟨none, same⟩
      · refine .inl ⟨k, by omega, result, fun j small less => ?_⟩
        rcases Nat.lt_or_eq_of_le small with below | rfl
        · exact beyond j (by omega) less
        · exact now
      · refine .inr ⟨fun j small => ?_, same⟩
        rcases Nat.lt_or_eq_of_le small with below | rfl
        · exact none j (by omega)
        · exact now

/-- A numeral at the front of a text is within the marks there. -/
theorem eq_take_of_writes {text front : List Char} {x : Float} (starts : front <+: text)
    (writes : Writes front x) :
    front.length ≤ (text.takeWhile isMark).length ∧
      front = (text.takeWhile isMark).take front.length := by
  obtain ⟨rest, rfl⟩ := starts
  rw [List.takeWhile_append_of_pos (List.all_eq_true.mp writes.marks)]
  simp

/-- `VAL` reads the longest numeral, and where there is none it gives zero. -/
theorem ofFront_spec (cs : List Char) :
    (∃ front, LongestNumeral (trimStart cs) front ∧ Writes front (ofFront cs)) ∨
      (∀ front, front <+: trimStart cs → ¬∃ x, Writes front x) ∧ ofFront cs = 0.0 := by
  have writes {k : ℕ} {x : Float} :
      Numeral.plain? ((trimStart cs).take k) = some x ↔ Writes ((trimStart cs).take k) x :=
    Numeral.plain?_eq_some_iff
  have taken {front : List Char} (starts : front <+: trimStart cs) :
      front.length ≤ (trimStart cs).length ∧ (trimStart cs).take front.length = front :=
    ⟨starts.length_le, (List.prefix_iff_eq_take.mp starts).symm⟩
  rcases foldl_overwrite (fun k => Numeral.plain? ((trimStart cs).take k)) 0.0
    (trimStart cs).length with ⟨k, within, read, beyond⟩ | ⟨none, zero⟩
  · refine .inl ⟨_, ⟨List.take_prefix k _, ⟨_, writes.mp read⟩, ?_⟩, writes.mp read⟩
    rintro other starts ⟨y, written⟩
    obtain ⟨short, same⟩ := taken starts
    rw [List.length_take_of_le within]
    by_contra! longer
    rw [← same, ← writes, beyond other.length short longer] at written
    cases written
  · refine .inr ⟨?_, zero⟩
    rintro front starts ⟨x, written⟩
    obtain ⟨short, same⟩ := taken starts
    rw [← same, ← writes, none front.length short] at written
    cases written

/-- Where a whole text is read, its front is read alike. -/
theorem ofFront_of_ofField? {cs : List Char} {x : Float} (read : ofField? cs = some x) :
    ofFront cs = x := by
  rcases ofField?_eq_some_iff.mp read with ⟨empty, rfl⟩ | writes
  · have nothing : (trimStart cs).takeWhile isMark = [] := by
      rw [Text.takeWhile_isMark_of_trim (by rw [empty]; rfl), empty]
    rcases ofFront_spec cs with ⟨front, longest, written⟩ | ⟨-, zero⟩
    · obtain ⟨-, same⟩ := eq_take_of_writes longest.starts written
      rw [same, nothing, List.take_nil] at written
      exact absurd written (Numeral.not_writes_nil _)
    · exact zero
  · have body := Text.takeWhile_isMark_of_trim writes.marks
    have starts : trim cs <+: trimStart cs := body ▸ List.takeWhile_prefix isMark
    rcases ofFront_spec cs with ⟨front, longest, written⟩ | ⟨none, -⟩
    · -- the longest numeral is all the marks, and these are the whole text
      obtain ⟨short, same⟩ := eq_take_of_writes longest.starts written
      have long := longest.longest _ starts ⟨x, writes⟩
      rw [body] at short same
      rw [List.take_of_length_le long] at same
      rw [same] at written
      exact written.unique writes
    · exact absurd ⟨x, writes⟩ (none _ starts)

/-! ## Words -/

/-- A numeral is read as the double nearest to its number. -/
theorem nearest_numeral (negative : Bool) (d : Decimal) :
    Nearest (Numeral.nearest negative d) (if negative then -d.amount else d.amount) := by
  cases negative with
  | false => exact d.toFloat_nearest
  | true => exact d.toFloat_nearest.neg

/-- A numeral is never read as an undefined number. -/
theorem defined_of_writes {cs : List Char} {x : Float} (writes : Writes cs x) : ¬IsUndefined x := by
  obtain ⟨negative, d, -, rfl⟩ := writes
  exact (nearest_numeral negative d).defined

/-- No text makes `VAL` give an undefined number. -/
theorem ofFront_defined (cs : List Char) : ¬IsUndefined (ofFront cs) := by
  rcases ofFront_spec cs with ⟨front, -, writes⟩ | ⟨-, zero⟩
  · exact defined_of_writes writes
  · rw [zero]
    nofun

/-- A numeral has a digit or a point behind its sign. -/
theorem not_writes_of_isAlpha {sign rest front : List Char} {negative : Bool} {c : Char}
    (signed : Signed sign negative) (alpha : c.isAlpha = true)
    (starts : front <+: sign ++ c :: rest) : ¬∃ x, Writes front x := by
  rintro ⟨x, negative', d, ⟨signed', mantissa, digit, exponent⟩, -⟩
  rename_i s m ex size power
  obtain ⟨after, text⟩ := starts
  have full := Numeral.ne_nil_of_any_isDigit digit
  have plain : (c :: rest).head?.any Numeral.isSign = false := by
    show (c == '+' || c == '-') = false
    rw [Bool.or_eq_false_iff, beq_eq_false_iff_ne, beq_eq_false_iff_ne]
    constructor <;> rintro rfl <;> cases alpha
  have body := Numeral.sign_append signed plain
  rw [← text, List.append_assoc, List.append_assoc,
    Numeral.sign_append signed' (mantissa.plain full (ex ++ after))] at body
  obtain ⟨d, more, rfl, first⟩ := mantissa.head full
  obtain rfl : d = c := (List.cons.inj (congrArg Prod.snd body)).1
  rcases first with isDigit | rfl
  · rw [Token.isDigit_of_isAlpha alpha] at isDigit
    cases isDigit
  · cases alpha

/-! ## Number tokens -/

section Literals

variable {m ex : List Char} {size : Decimal} {p : ℤ}

/-- The mantissa of a number token is what stands before a capital `E`. -/
theorem takeWhile_ne_mark (mantissa : Mantissa m size) (mark : ex = [] ∨ ex.head? = some 'E') :
    (m ++ ex).takeWhile (· != 'E') = m := by
  refine (Token.span_append (fun c member => ?_) ?_).1
  · rcases mantissa.of_mem member with digit | rfl
    · rw [bne_iff_ne]
      rintro rfl
      cases digit
    · rfl
  · rcases mark with rfl | first
    · rfl
    · rw [first]
      rfl

/-- A mantissa and an exponent are read exactly if the mantissa has a digit. -/
theorem read?_literal (mantissa : Mantissa m size) (exponent : Exponent ex p) (full : m ≠ []) :
    Numeral.read? (m ++ ex) =
      if m.any Char.isDigit then some (Decimal.toFloat ⟨size.digits, size.exponent + p⟩)
      else none := by
  rw [Numeral.read?_of_marks (mantissa.marks_append exponent),
    Numeral.sign_of_plain (mantissa.plain full ex),
    Numeral.decimal?_append mantissa (exponent.stops m), Numeral.exponent?_eq_some_iff.mpr exponent]
  split <;> rfl

/-- A field without blanks is read like a numeral. -/
theorem ofField?_of_marks {cs : List Char} (marks : cs.all isMark = true) (full : cs ≠ []) :
    ofField? cs = Numeral.read? cs := by
  unfold ofField?
  dsimp only
  rw [Text.trim_of_marks marks, if_neg (by simp [full]), Numeral.plain?, if_pos marks]

/-- A number token is read as a reply would be, and has no value exactly if it has no digit before
its exponent. -/
theorem read?_of_made {s : String} (made : (Token.number s).Made) :
    Numeral.read? s.toList = ofField? s.toList ∧
      (Numeral.read? s.toList = none ↔
        ∀ c ∈ s.toList.takeWhile (· != 'E'), c.isDigit = false) := by
  obtain ⟨c, cs, number, rfl⟩ := made
  obtain ⟨m, size, ex, p, taken, mantissa, exponent, mark⟩ := Token.takeNumber_false_fst (c :: cs)
  obtain ⟨more, first⟩ := Token.exists_takeNumber_eq number cs
  rw [String.toList_ofList, taken]
  rw [taken] at first
  have full : m ≠ [] := by
    rintro rfl
    -- an exponent starts with its mark, and a number does not
    rcases mark with rfl | capital
    · cases first
    · rw [show ex = c :: more from first] at capital
      cases capital
      cases number
  refine ⟨(ofField?_of_marks (mantissa.marks_append exponent) (by simp [full])).symm, ?_⟩
  rw [takeWhile_ne_mark mantissa mark, read?_literal mantissa exponent full]
  simp

end Literals

/-! ## All readers -/

/-- What the readers of numbers do. A reply or a data item is read if it is blank or a numeral
between blanks, and then `VAL` gives the same number. `VAL` gives the number of the longest numeral
behind the blanks at the front of a string, or zero if there is none, and it takes no word for a
number. A number token is read as a reply would be, and is refused exactly if it has no digit before
its exponent. -/
theorem readers_agree :
    (∀ cs x, ofField? cs = some x ↔ trim cs = [] ∧ x = 0.0 ∨ Writes (trim cs) x) ∧
    (∀ clock dice (s : String) x, ofField? s.toList = some x →
      Builtin.call clock dice .VAL [.string s] = .ok (.number x, dice)) ∧
    (∀ clock dice (s : String), ∃ x,
      Builtin.call clock dice .VAL [.string s] = .ok (.number x, dice) ∧ ¬IsUndefined x ∧
        ((∃ front, LongestNumeral (trimStart s.toList) front ∧ Writes front x) ∨
          (∀ front, front <+: trimStart s.toList → ¬∃ y, Writes front y) ∧ x = 0.0)) ∧
    (∀ clock dice (s : String) sign negative letter rest, Signed sign negative →
      letter.isAlpha = true → trimStart s.toList = sign ++ letter :: rest →
        Builtin.call clock dice .VAL [.string s] = .ok (.number 0.0, dice)) ∧
    (∀ text s, .number s ∈ (Token.scanLine text).2 →
      Numeral.read? s.toList = ofField? s.toList ∧
        (Numeral.read? s.toList = none ↔
          ∀ c ∈ s.toList.takeWhile (· != 'E'), c.isDigit = false)) := by
  have call : ∀ clock dice (s : String),
      Builtin.call clock dice .VAL [.string s] = .ok (.number (ofFront s.toList), dice) :=
    fun _ _ _ => rfl
  refine ⟨fun cs x => ofField?_eq_some_iff, fun clock dice s x read => ?_, fun clock dice s => ?_,
    fun clock dice s sign negative letter rest signed alpha text => ?_, fun text s member => ?_⟩
  · rw [call, ofFront_of_ofField? read]
  · exact ⟨_, call clock dice s, ofFront_defined _, ofFront_spec _⟩
  · rcases ofFront_spec s.toList with ⟨front, longest, writes⟩ | ⟨-, zero⟩
    · have starts := longest.starts
      rw [text] at starts
      exact absurd ⟨_, writes⟩ (not_writes_of_isAlpha signed alpha starts)
    · rw [call, zero]
  · exact read?_of_made ((Token.shape_scanLine text).made_of_mem member)

/-- A numeral with blanks around it, a word that is no numeral, and an exponent without digits
before it. -/
theorem readers_agree_samples :
    ofField? " -.5E+1 ".toList = some (-5.0) ∧
      Builtin.call ⟨1980, 1, 1, 0, 0, 0⟩ (.ofSeed 0 0.0) .VAL [.string " -.5E+1 "] =
        .ok (.number (-5.0), .ofSeed 0 0.0) ∧
      Builtin.call ⟨1980, 1, 1, 0, 0, 0⟩ (.ofSeed 0 0.0) .VAL [.string "\t+Infinity"] =
        .ok (.number 0.0, .ofSeed 0 0.0) ∧
      Numeral.read? ".E5".toList = none := by
  obtain ⟨-, whole, -, words, tokens⟩ := readers_agree
  have read : ofField? " -.5E+1 ".toList = some (-5.0) := by decide +kernel
  obtain ⟨-, refused⟩ := tokens "PRINT .e5".toList ".E5" (by decide +kernel)
  refine ⟨read, whole _ _ _ _ read, ?_, ?_⟩
  · exact words _ _ _ ['+'] false 'I' "nfinity".toList .plus rfl (by decide +kernel)
  · have front : ".E5".toList.takeWhile (· != 'E') = ['.'] := by decide +kernel
    rw [refused, front]
    intro c member
    rw [List.mem_singleton.mp member]
    rfl

end Number

end NumberedBasic
