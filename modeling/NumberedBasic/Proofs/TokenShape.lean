import NumberedBasic.Proofs.ListedTokens

/-!
# The shape of the tokens of a line

What a reader of statements may rely on, whatever text was entered: where a line ends, where its
blanks, remarks and data items stand, and how names are spelled (`WellShaped`). `Shape` says how the
tokens of a line go on in each mode of the scanner. It holds of what is scanned and trimmed
(`shape_of_scan`), joining tokens keeps it (`Shape.of_joins`), and the facts about whole lines are
read off it by induction.
-/

set_option autoImplicit false

namespace NumberedBasic

namespace Token

/-! ## Names -/

/-- The spelling of a name and its tag: capital letters, then digits, then possibly a `$`, which is
there exactly if the tag is that of strings. Nothing that the name starts with is a keyword or an
operator. -/
structure Identifier (i : Ident) : Prop where
  form : ∃ letters digits sigil, i.name.toList = letters ++ digits ++ sigil ∧
    letters ≠ [] ∧ (∀ c ∈ letters, c.isUpper = true) ∧ (∀ d ∈ digits, d.isDigit = true) ∧
    (sigil = [] ∧ i.isText = false ∨ sigil = ['$'] ∧ i.isText = true)
  tag : i.isText = true ↔ i.name.toList.getLast? = some '$'
  noWord : ∀ word : Word, ¬word.text.toList <+: i.name.toList
  noOperator : ∀ op : Operator, ¬op.text.toList <+: i.name.toList

/-- What has been read of a name before its `$`; `digit` says whether there is a digit in it. -/
structure Begun (digit : Bool) (seen : List Char) : Prop where
  form : ∃ letters digits, seen = letters ++ digits ∧ (letters = [] → digits = []) ∧
    (∀ c ∈ letters, c.isUpper = true) ∧ (∀ d ∈ digits, d.isDigit = true) ∧
    (digit = false → digits = [])
  unspelled : ∀ front, front <+: seen → ofSpelling? front = none

/-- What may come next in a name. -/
def Continues (digit : Bool) (seen : List Char) (c : Char) : Prop :=
  c.isAlpha = true ∧ digit = false ∨ seen ≠ [] ∧ (c.isDigit = true ∨ c = '$')

/-- Nothing of a name has been read at its start. -/
theorem begun_nil : Begun false [] where
  form := ⟨[], [], rfl, fun _ => rfl, by simp, by simp, fun _ => rfl⟩
  unspelled := by
    intro front starts
    rw [List.prefix_nil.mp starts]
    decide

/-- The capital of any letter is a capital. -/
theorem isUpper_toUpper_of_isAlpha {c : Char} (alpha : c.isAlpha = true) :
    c.toUpper.isUpper = true := by
  rcases Bool.or_eq_true_iff.mp alpha with upper | lower
  · rwa [toUpper_of_isLower_eq_false (isLower_of_isUpper upper)]
  · exact isUpper_toUpper lower

section Begun

variable {digit : Bool} {seen : List Char} {c : Char}

/-- What a name goes on with spells no keyword and no operator, if the longest part of it does
not. -/
theorem Begun.unspelled_append (begun : Begun digit seen)
    (unspelled : ofSpelling? (seen ++ [c]) = none) :
    ∀ front, front <+: seen ++ [c] → ofSpelling? front = none := by
  intro front starts
  rcases List.prefix_concat_iff.mp starts with whole | shorter
  · rwa [whole]
  · exact begun.unspelled front shorter

/-- One more letter or digit. -/
theorem Begun.append (begun : Begun digit seen) (more : Continues digit seen c) (plain : c ≠ '$')
    (unspelled : ofSpelling? (seen ++ [c.toUpper]) = none) :
    Begun (digit || c.isDigit) (seen ++ [c.toUpper]) := by
  refine ⟨?_, begun.unspelled_append unspelled⟩
  obtain ⟨letters, digits, rfl, starts, upper, figures, none⟩ := begun.form
  rcases more with ⟨alpha, rfl⟩ | ⟨full, figure | dollar⟩
  · obtain rfl := none rfl
    refine ⟨letters ++ [c.toUpper], [], by simp, by simp, ?_, by simp, fun _ => rfl⟩
    intro d member
    rcases List.mem_append.mp member with before | last
    · exact upper d before
    · rw [List.mem_singleton.mp last]
      exact isUpper_toUpper_of_isAlpha alpha
  · have same : c.toUpper = c := by
      apply toUpper_of_isLower_eq_false
      rw [Bool.eq_false_iff]
      intro lower
      have letter : c.isAlpha = true := Bool.or_eq_true_iff.mpr (.inr lower)
      rw [isDigit_of_isAlpha letter] at figure
      cases figure
    refine ⟨letters, digits ++ [c], by simp [same], ?_, upper, ?_, ?_⟩
    · intro empty
      simp [empty, starts empty] at full
    · intro d member
      rcases List.mem_append.mp member with before | last
      · exact figures d before
      · rwa [List.mem_singleton.mp last]
    · intro noDigit
      rw [figure, Bool.or_true] at noDigit
      cases noDigit
  · exact absurd dollar plain

end Begun

/-- The text of a fixed token is a spelling. -/
theorem ofSpelling?_of_mem {t : Token} (member : t ∈ fixed) :
    ofSpelling? t.text.toList ≠ none := by
  have all : fixed.all (fun t => (ofSpelling? t.text.toList).isSome) = true := by decide +kernel
  have spelled := List.all_eq_true.mp all t member
  intro unspelled
  rw [unspelled] at spelled
  cases spelled

/-- What a spelling stands for is no name. -/
theorem ne_name_of_ofSpelling? {cs : List Char} {t : Token} (spelled : ofSpelling? cs = some t)
    (i : Ident) : t ≠ .name i := by
  rintro rfl
  have all : fixed.all (fun t => !t.isName) = true := by decide
  cases List.all_eq_true.mp all _ (fixed_of_ofSpelling? spelled).1

/-- Every keyword is a fixed token. -/
theorem word_mem_fixed (word : Word) : .word word ∈ fixed := by
  cases word <;> decide

/-- Every operator is a fixed token. -/
theorem operator_mem_fixed (op : Operator) : .operator op ∈ fixed := by
  cases op with
  | binary op => cases op <;> decide
  | not => decide

section Name

variable {digit : Bool} {seen cs rest : List Char} {c : Char} {i : Ident}

/-- No `$` has been read of a name that may still go on. -/
theorem Begun.dollar_notMem (begun : Begun digit seen) : '$' ∉ seen := by
  obtain ⟨letters, digits, rfl, -, upper, figures, -⟩ := begun.form
  intro dollar
  rcases List.mem_append.mp dollar with before | behind
  · exact absurd (upper _ before) (by decide)
  · exact absurd (figures _ behind) (by decide)

/-- What has been read of a name is one if it does not go on and has the tag of numbers, or goes on
with a `$` and has the tag of strings. -/
theorem Begun.identifier (begun : Begun digit seen) (full : seen ≠ []) {sigil : List Char}
    (spelled : i.name.toList = seen ++ sigil)
    (ends : sigil = [] ∧ i.isText = false ∨ sigil = ['$'] ∧ i.isText = true)
    (unspelled : ∀ front, front <+: seen ++ sigil → ofSpelling? front = none) :
    Identifier i := by
  refine ⟨?_, ?_, fun word starts => ?_, fun op starts => ?_⟩
  · obtain ⟨letters, digits, rfl, starts, upper, figures, -⟩ := begun.form
    have letter : letters ≠ [] := by
      intro empty
      simp [empty, starts empty] at full
    exact ⟨letters, digits, sigil, spelled, letter, upper, figures, ends⟩
  · rw [spelled]
    rcases ends with ⟨rfl, plain⟩ | ⟨rfl, text⟩
    · rw [List.append_nil, plain]
      exact ⟨nofun, fun dollar => absurd (List.mem_of_getLast? dollar) begun.dollar_notMem⟩
    · simp [text]
  · rw [spelled] at starts
    exact ofSpelling?_of_mem (word_mem_fixed word) (unspelled _ starts)
  · rw [spelled] at starts
    exact ofSpelling?_of_mem (operator_mem_fixed op) (unspelled _ starts)

/-- A name goes on with a `$` only when it has begun. -/
theorem Continues.eq_dollar_or (more : Continues digit seen c) : seen ≠ [] ∧ c = '$' ∨ c ≠ '$' := by
  by_cases dollar : c = '$'
  · subst dollar
    rcases more with ⟨alpha, -⟩ | ⟨full, -⟩
    · cases alpha
    · exact .inl ⟨full, rfl⟩
  · exact .inr dollar

/-- A name ends with its `$`, and is tagged as one of strings. -/
theorem Begun.identifier_of_dollar (begun : Begun digit seen) (more : Continues digit seen '$')
    (unspelled : ofSpelling? (seen ++ ['$']) = none) :
    Identifier (.text (String.ofList (seen ++ ['$']))) := by
  obtain ⟨full, -⟩ := more.eq_dollar_or.resolve_right fun plain => plain rfl
  exact begun.identifier full String.toList_ofList (.inr ⟨rfl, rfl⟩)
    (begun.unspelled_append unspelled)

/-- A name ends where it cannot go on, and is tagged as one of numbers. -/
theorem Begun.identifier_of_stop (begun : Begun digit seen) (more : Continues digit seen c)
    (plain : c ≠ '$') (unspelled : ofSpelling? (seen ++ [c.toUpper]) = none) :
    Identifier (.plain (String.ofList (seen ++ [c.toUpper]))) := by
  have whole := begun.append more plain unspelled
  refine whole.identifier (by simp) ?_ (.inl ⟨rfl, rfl⟩) (by simpa using whole.unspelled)
  rw [List.append_nil]
  exact String.toList_ofList

/-- The names that are read are spelled and tagged as names are: what was read before the next
character stays of that form. -/
theorem identifier_of_takeName (begun : Begun digit seen) (more : Continues digit seen c)
    (taken : takeName seen digit c cs = (.name i, rest)) : Identifier i := by
  fun_induction takeName seen digit c cs with
  | case1 cs seen digit c read t spelled =>
    cases taken
    exact absurd rfl (ne_name_of_ofSpelling? spelled i)
  | case2 cs seen digit c read unspelled dollar =>
    cases taken
    obtain rfl := beq_iff_eq.mp dollar
    exact begun.identifier_of_dollar more unspelled
  | case3 seen digit c read unspelled plain =>
    cases taken
    exact begun.identifier_of_stop more (fun dollar => plain (beq_iff_eq.mpr dollar)) unspelled
  | case4 seen digit c read digits unspelled plain d cs goes ih =>
    have plain : c ≠ '$' := fun dollar => plain (beq_iff_eq.mpr dollar)
    refine ih (begun.append more plain unspelled) ?_ taken
    simp only [Bool.or_eq_true, Bool.and_eq_true, beq_iff_eq, Bool.not_eq_eq_eq_not,
      Bool.not_true] at goes
    rcases goes with (⟨alpha, noDigit⟩ | figure) | dollar
    · exact .inl ⟨alpha, noDigit⟩
    · exact .inr ⟨by simp [read], .inl figure⟩
    · exact .inr ⟨by simp [read], .inr dollar⟩
  | case5 seen digit c read digits unspelled plain d cs halt =>
    cases taken
    exact begun.identifier_of_stop more (fun dollar => plain (beq_iff_eq.mpr dollar)) unspelled

end Name

/-! ## One token after another -/

/-- Neither a blank nor the end of the line. -/
def isInk : Token → Bool
  | .blank _ | .endOfLine => false
  | _ => true

/-- What the scanner makes names and numbers of. -/
def Made : Token → Prop
  | .name i => Identifier i
  | .number s => ∃ c cs, (c.isDigit || c == '.') = true ∧
    s = String.ofList (takeNumber false (c :: cs)).1
  | _ => True

/-- How the tokens of a line go on, in each mode, up to the end of the line. -/
inductive Shape : Mode → List Token → Prop
  | close {mode : Mode} : Shape mode [.endOfLine]
  | blank {mode : Mode} {w : Nat} {ts : List Token} (other : mode ≠ .remark) (wide : 0 < w)
    (ink : ts.head?.any isInk = true) (more : Shape mode ts) : Shape mode (.blank w :: ts)
  | remark {s : String} : Shape .remark [.remark s, .endOfLine]
  | datum {s : String} {ts : List Token} (more : Shape .data ts) : Shape .data (.datum s :: ts)
  | item {t : Token} {ts : List Token} (item : t = .comma ∨ ∃ s, t = .string s)
    (more : Shape .data ts) : Shape .data (t :: ts)
  | colon {ts : List Token} (more : Shape .statements ts) : Shape .data (.colon :: ts)
  | token {t : Token} {ts : List Token} (stay : t.stays = true) (ink : t.isInk = true)
    (made : t.Made) (more : Shape (Mode.statements.after t) ts) : Shape .statements (t :: ts)

/-- What is taken from a character that is not blank is no blank. -/
theorem isInk_of_takes {mode m : Mode} {c : Char} {cs rest : List Char} {t : Token}
    (takes : Takes mode c cs t m rest) (solid : isGap c = false) : t.isInk = true := by
  cases t with
  | blank w =>
    rw [(takes_blank takes).2.1] at solid
    cases solid
  | endOfLine => exact (takes_ne_endOfLine takes).elim
  | _ => rfl

/-- A text that does not start with a blank has no blank for its first token. -/
theorem isInk_head_of_solid {mode : Mode} {c : Char} {cs : List Char} (solid : isGap c = false) :
    (trimEnd (scan mode (c :: cs)) ++ [endOfLine]).head?.any isInk = true := by
  have trimmed := trimmed_scan mode (c :: cs)
  generalize trimEnd (scan mode (c :: cs)) = us at trimmed
  cases trimmed with
  | nothing gaps =>
    rw [gaps c List.mem_cons_self] at solid
    cases solid
  | token takes plain inner => exact isInk_of_takes takes solid
  | remark | datum => rfl

/-- A blank that is left at the end of a line has another token behind it. -/
theorem isInk_after_blank {mode m : Mode} {c : Char} {cs rest : List Char} {w : Nat}
    {us : List Token} (takes : Takes mode c cs (.blank w) m rest)
    (left : trimEnd (scan mode (c :: cs)) = .blank w :: us) :
    (trimEnd (scan m rest) ++ [endOfLine]).head?.any isInk = true := by
  obtain ⟨other, gap, rfl, rfl, -⟩ := takes_blank takes
  cases rest : cs.dropWhile isGap with
  | nil =>
    rw [scan_of_next (next_of_gap other gap), List.dropWhile_cons_of_pos gap, rest, scan] at left
    cases left
  | cons d ds =>
    have solid : isGap d = false := by
      have halt := any_head?_dropWhile isGap cs
      rwa [rest] at halt
    exact isInk_head_of_solid solid

/-- A token with a fixed spelling stays at the end of a line, and is no blank. -/
theorem stays_of_isSpelled {t : Token} (spelled : t.isSpelled = true) :
    t.stays = true ∧ t.isInk = true := by
  cases t <;> first | exact ⟨rfl, rfl⟩ | cases spelled

/-- A token with a fixed spelling is made as the scanner makes them, if it is when it is a name. -/
theorem made_of_isSpelled {t : Token} (spelled : t.isSpelled = true)
    (named : ∀ i, t = .name i → Identifier i) : t.Made := by
  cases t with
  | name i => exact named i rfl
  | number s => cases spelled
  | _ => trivial

/-- What is taken of a text goes on as the mode says. -/
theorem Shape.of_takes {mode m : Mode} {c : Char} {cs rest : List Char} {t : Token}
    {ts : List Token} (takes : Takes mode c cs t m rest) (plain : ∀ s, t ≠ .remark s)
    (blank : ∀ w, t = .blank w → ts.head?.any isInk = true) (more : Shape m ts) :
    Shape mode (t :: ts) := by
  cases takes with
  | remark => exact absurd rfl (plain _)
  | gap other gap =>
    refine .blank other ?_ (blank _ rfl) more
    rw [List.takeWhile_cons_of_pos gap]
    exact Nat.succ_pos _
  | @string mode cs other =>
    cases mode with
    | remark => exact absurd rfl other
    | statements => exact .token rfl rfl trivial more
    | data => exact .item (.inr ⟨_, rfl⟩) more
  | comma => exact .item (.inl rfl) more
  | colon => exact .colon more
  | datum => exact .datum more
  | number number => exact .token rfl rfl ⟨_, _, number, rfl⟩ more
  | name alpha taken =>
    obtain ⟨stay, ink⟩ := stays_of_isSpelled (isSpelled_of_takeName taken)
    refine .token stay ink (made_of_isSpelled (isSpelled_of_takeName taken) fun i same => ?_) more
    subst same
    exact identifier_of_takeName begun_nil (.inl ⟨alpha, rfl⟩) taken
  | symbol _ _ _ _ spelled =>
    have isSpelled := isSpelled_of_ofSpelling? spelled
    obtain ⟨stay, ink⟩ := stays_of_isSpelled isSpelled
    exact .token stay ink (made_of_isSpelled isSpelled fun i same =>
      absurd same (ne_name_of_ofSpelling? spelled i)) more
  | unknown => exact .token rfl rfl trivial more

/-- The tokens of a text, without blanks at their end, go on as the mode says. -/
theorem shape_of_scan {mode : Mode} {cs : List Char} {us : List Token}
    (left : trimEnd (scan mode cs) = us) : Shape mode (us ++ [.endOfLine]) := by
  -- The induction is on the tokens: what a text leaves behind its first one is not always shorter.
  induction us generalizing mode cs with
  | nil => exact .close
  | cons t us ih =>
    have trimmed := trimmed_scan mode cs
    rw [left] at trimmed
    cases trimmed with
    | token takes plain inner =>
      refine .of_takes takes plain (fun w same => ?_) (ih rfl)
      subst same
      exact isInk_after_blank takes left
    | remark => exact .remark
    | datum => exact .datum .close

section Joins

variable {mode : Mode} {W us ts : List Token}

/-- Two signs are joined to an operator. -/
theorem operator_of_relation? {a b t : Token} (spelled : relation? a b = some t) :
    ∃ op, t = .operator op := by
  unfold relation? at spelled
  split at spelled
  · split at spelled <;> cases spelled <;> exact ⟨_, rfl⟩
  · cases spelled

/-- Joining tokens puts no blank first. -/
theorem Joins.isInk_head (joins : Joins W us) (ink : W.head?.any isInk = true) :
    us.head?.any isInk = true := by
  cases joins with
  | nil => cases ink
  | go spelled more =>
    obtain ⟨-, -, ⟨-, rfl⟩ | ⟨-, rfl⟩⟩ := goWord?_eq_some spelled <;> rfl
  | signs spelled more =>
    obtain ⟨op, rfl⟩ := operator_of_relation? spelled
    rfl
  | keep => exact ink

/-- A token that stands in a statement, and nowhere else. -/
theorem Shape.of_statement {t : Token} (shape : Shape mode (t :: ts)) (stay : t.stays = true)
    (ink : t.isInk = true) (noComma : t ≠ .comma) (noColon : t ≠ .colon)
    (noString : ∀ s, t ≠ .string s) :
    mode = .statements ∧ Shape (Mode.statements.after t) ts := by
  cases shape with
  | close => cases ink
  | blank => cases stay
  | remark => cases stay
  | datum => cases stay
  | item item more =>
    rcases item with comma | ⟨s, string⟩
    · exact absurd comma noComma
    · exact absurd string (noString s)
  | colon => exact absurd rfl noColon
  | token _ _ _ more => exact ⟨rfl, more⟩

/-- Joining tokens keeps the shape of a line: what is joined stands in a statement, and so does the
token it becomes. -/
theorem Shape.of_joins (joins : Joins W us) (shape : Shape mode W) : Shape mode us := by
  -- Joined tokens stand in statements only, because the words and signs that they are joined from
  -- do.
  induction joins generalizing mode with
  | nil => cases shape
  | go spelled more ih =>
    obtain ⟨rfl, ⟨w, rfl⟩, second⟩ := goWord?_eq_some spelled
    obtain ⟨rfl, afterGo⟩ := shape.of_statement rfl rfl (by simp) (by simp) (by simp)
    cases afterGo with
    | token stay => cases stay
    | blank _ _ _ afterBlank =>
      rcases second with ⟨rfl, rfl⟩ | ⟨rfl, rfl⟩
      · obtain ⟨-, rest⟩ := afterBlank.of_statement rfl rfl (by simp) (by simp) (by simp)
        exact .token rfl rfl trivial (ih rest)
      · obtain ⟨-, rest⟩ := afterBlank.of_statement rfl rfl (by simp) (by simp) (by simp)
        exact .token rfl rfl trivial (ih rest)
  | signs spelled more ih =>
    obtain ⟨x, y, -, -, rfl, rfl, -⟩ := relation?_eq_some spelled
    obtain ⟨op, rfl⟩ := operator_of_relation? spelled
    obtain ⟨rfl, afterFirst⟩ := shape.of_statement rfl rfl (by simp) (by simp) (by simp)
    obtain ⟨-, rest⟩ := afterFirst.of_statement rfl rfl (by simp) (by simp) (by simp)
    exact .token rfl rfl trivial (ih rest)
  | keep whole noGo noSigns more ih =>
    cases shape with
    | close =>
      rw [more.eq.symm]
      exact .close
    | blank other wide ink shape => exact .blank other wide (more.isInk_head ink) (ih shape)
    | remark =>
      rw [more.endOfLine]
      exact .remark
    | datum shape => exact .datum (ih shape)
    | item item shape => exact .item item (ih shape)
    | colon shape => exact .colon (ih shape)
    | token stay ink made shape => exact .token stay ink made (ih shape)

end Joins

/-- The tokens of a line have the shape of statements. -/
theorem shape_scanLine (cs : List Char) : Shape .statements (scanLine cs).2 := by
  rw [scanLine_eq]
  exact (shape_of_scan rfl).of_joins (joins_scan .statements (takeLineNumber cs).2)

/-! ## Whole lines -/

/-- The mode after a token of a line. -/
def Mode.past : Mode → Token → Mode
  | .statements, t => Mode.statements.after t
  | .data, .colon => .statements
  | mode, _ => mode

/-- Remarks start with the words for them. -/
theorem Mode.past_eq_remark {mode : Mode} {t : Token} (h : mode.past t = .remark) :
    mode = .remark ∨ t = .word .REM ∨ t = .word .APOSTROPHE := by
  cases mode with
  | remark => exact .inl rfl
  | data => cases t <;> cases h
  | statements =>
    cases t with
    | word w => cases w <;> first | exact .inr (.inl rfl) | exact .inr (.inr rfl) | cases h
    | _ => cases h

/-- Data start with the word for them, and end at a colon. -/
theorem Mode.past_eq_data {mode : Mode} {t : Token} (h : mode.past t = .data) :
    t = .word .DATA ∨ mode = .data ∧ t ≠ .colon := by
  cases mode with
  | remark => cases t <;> cases h
  | data =>
    refine .inr ⟨rfl, ?_⟩
    rintro rfl
    cases h
  | statements =>
    cases t with
    | word w => cases w <;> first | exact .inl rfl | cases h
    | _ => cases h

/-- Data items are read from `DATA` to the next colon. -/
theorem Mode.of_foldl_past_eq_data {mode : Mode} {ts : List Token}
    (h : ts.foldl Mode.past mode = .data) :
    mode = .data ∧ .colon ∉ ts ∨
      ∃ front between, ts = front ++ .word .DATA :: between ∧ .colon ∉ between := by
  induction ts generalizing mode with
  | nil => exact .inl ⟨h, by simp⟩
  | cons t ts ih =>
    rcases ih h with ⟨data, noColon⟩ | ⟨front, between, rfl, noColon⟩
    · rcases Mode.past_eq_data data with rfl | ⟨rfl, other⟩
      · exact .inr ⟨[], ts, rfl, noColon⟩
      · exact .inl ⟨rfl, by simp [other.symm, noColon]⟩
    · exact .inr ⟨t :: front, between, rfl, noColon⟩

/-- What may be relied on about the tokens of a line. -/
structure WellShaped (ts : List Token) : Prop where
  /-- The end of the line is the last token and no other. -/
  ends : ∃ body, ts = body ++ [.endOfLine] ∧ .endOfLine ∉ body
  /-- A blank has a width. -/
  wide : ∀ w, .blank w ∈ ts → 1 ≤ w
  /-- Neither another blank nor the end of the line follows a blank. -/
  spaced : ∀ before w t after, ts = before ++ .blank w :: t :: after →
    t ≠ .endOfLine ∧ ∀ w', t ≠ .blank w'
  /-- Names are spelled and tagged as names are. -/
  named : ∀ i, .name i ∈ ts → Identifier i
  /-- A remark stands between its keyword and the end of the line. -/
  remarked : ∀ before s after, ts = before ++ .remark s :: after → after = [.endOfLine] ∧
    ∃ front, before = front ++ [.word .REM] ∨ before = front ++ [.word .APOSTROPHE]
  /-- A data item stands behind `DATA`, and no colon is between the two. -/
  itemised : ∀ before s after, ts = before ++ .datum s :: after →
    ∃ front between, before = front ++ .word .DATA :: between ∧ .colon ∉ between

namespace Shape

variable {mode : Mode} {t : Token} {ts before rest after : List Token} {w : Nat} {s : String}

/-- A line ends once. -/
theorem ends (shape : Shape mode ts) : ∃ body, ts = body ++ [.endOfLine] ∧ .endOfLine ∉ body := by
  have cons : ∀ {t : Token} {ts : List Token}, t ≠ .endOfLine →
      (∃ body, ts = body ++ [.endOfLine] ∧ .endOfLine ∉ body) →
      ∃ body, t :: ts = body ++ [.endOfLine] ∧ .endOfLine ∉ body := by
    rintro t _ other ⟨body, rfl, inner⟩
    exact ⟨t :: body, rfl, by simp [other.symm, inner]⟩
  induction shape with
  | close => exact ⟨[], rfl, by simp⟩
  | blank _ _ _ _ ih => exact cons (by simp) ih
  | remark => exact ⟨[.remark _], rfl, by simp⟩
  | datum _ ih => exact cons (by simp) ih
  | item item _ ih =>
    refine cons ?_ ih
    rcases item with rfl | ⟨s, rfl⟩ <;> simp
  | colon _ ih => exact cons (by simp) ih
  | token _ ink _ _ ih =>
    refine cons ?_ ih
    rintro rfl
    cases ink

/-- What follows a token has the shape of the mode after it. -/
theorem tail (shape : Shape mode (t :: ts)) (full : ts ≠ []) : Shape (mode.past t) ts := by
  cases shape with
  | close => exact absurd rfl full
  | @blank mode w ts other wide ink more =>
    cases mode with
    | remark => exact absurd rfl other
    | statements | data => exact more
  | remark => exact .close
  | datum more => exact more
  | item item more => rcases item with rfl | ⟨s, rfl⟩ <;> exact more
  | colon more => exact more
  | token _ _ _ more => exact more

/-- What stands behind other tokens has the shape of the mode after these. -/
theorem of_append (shape : Shape mode (before ++ rest)) (full : rest ≠ []) :
    Shape (before.foldl Mode.past mode) rest := by
  induction before generalizing mode with
  | nil => exact shape
  | cons t before ih => exact ih (shape.tail (by simp [full]))

/-- A blank is not empty, and neither another one nor the end of the line follows it. -/
theorem blank_inv (shape : Shape mode (.blank w :: ts)) :
    0 < w ∧ ts.head?.any isInk = true := by
  cases shape with
  | blank other wide ink more => exact ⟨wide, ink⟩
  | token stay => cases stay
  | item item => rcases item with same | ⟨s, same⟩ <;> cases same

/-- The first token of a line is made as the scanner makes them. -/
theorem made_inv (shape : Shape mode (t :: ts)) : t.Made := by
  cases shape with
  | token _ _ made => exact made
  | item item => rcases item with rfl | ⟨s, rfl⟩ <;> trivial
  | _ => trivial

/-- All tokens of a line are made as the scanner makes them. -/
theorem made_of_mem (shape : Shape mode ts) (member : t ∈ ts) : t.Made := by
  obtain ⟨before, after, rfl⟩ := List.append_of_mem member
  exact (shape.of_append (by simp)).made_inv

/-- A remark stands where remarks are read, and closes the line. -/
theorem remark_inv (shape : Shape mode (.remark s :: ts)) : mode = .remark ∧ ts = [.endOfLine] := by
  cases shape with
  | remark => exact ⟨rfl, rfl⟩
  | token stay => cases stay
  | item item => rcases item with same | ⟨s, same⟩ <;> cases same

/-- An unquoted data item stands where data are read. -/
theorem datum_inv (shape : Shape mode (.datum s :: ts)) : mode = .data := by
  cases shape with
  | datum => rfl
  | token stay => cases stay
  | item item => rfl

/-- Two tokens before the end of a line are never in a remark. -/
theorem mode_ne_remark {u : Token} (shape : Shape mode (t :: u :: ts)) (inner : u ≠ .endOfLine) :
    mode ≠ .remark := by
  rintro rfl
  cases shape with
  | blank other => exact other rfl
  | remark => exact inner rfl

/-- A remark stands right behind one of the words for it, and closes the line. -/
theorem remarked (shape : Shape .statements (before ++ .remark s :: after)) :
    after = [.endOfLine] ∧
      ∃ front, before = front ++ [.word .REM] ∨ before = front ++ [.word .APOSTROPHE] := by
  obtain ⟨mode, last⟩ := (shape.of_append (by simp)).remark_inv
  refine ⟨last, ?_⟩
  rcases List.eq_nil_or_concat before with rfl | ⟨front, t, rfl⟩
  · cases mode
  · refine ⟨front, ?_⟩
    rw [List.concat_eq_append] at shape mode ⊢
    rw [List.foldl_append, List.foldl_cons, List.foldl_nil] at mode
    rw [List.append_assoc, List.singleton_append] at shape
    have outside := (shape.of_append (by simp)).mode_ne_remark (by simp)
    rcases Mode.past_eq_remark mode with inside | rfl | rfl
    · exact absurd inside outside
    · exact .inl rfl
    · exact .inr rfl

/-- An unquoted data item stands behind the word for data, with no colon between them. -/
theorem itemised (shape : Shape .statements (before ++ .datum s :: after)) :
    ∃ front between, before = front ++ .word .DATA :: between ∧ .colon ∉ between := by
  rcases Mode.of_foldl_past_eq_data (shape.of_append (by simp)).datum_inv with ⟨mode, -⟩ | found
  · cases mode
  · exact found

/-- A line that goes on as lines do is well shaped. -/
theorem wellShaped (shape : Shape .statements ts) : WellShaped ts where
  ends := shape.ends
  wide w member := by
    obtain ⟨before, after, rfl⟩ := List.append_of_mem member
    exact (shape.of_append (by simp)).blank_inv.1
  spaced before w t after split := by
    subst split
    have ink := (shape.of_append (by simp)).blank_inv.2
    constructor
    · rintro rfl
      cases ink
    · rintro w' rfl
      cases ink
  named i member := shape.made_of_mem member
  remarked before s after split := by
    subst split
    exact shape.remarked
  itemised before s after split := by
    subst split
    exact shape.itemised

end Shape

/-- The tokens of every line, whatever text was entered, are well shaped. -/
theorem scanLine_wellShaped (cs : List Char) : WellShaped (scanLine cs).2 :=
  (shape_scanLine cs).wellShaped

end Token

end NumberedBasic
