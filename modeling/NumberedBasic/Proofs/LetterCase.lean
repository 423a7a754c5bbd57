import NumberedBasic.Proofs.ListedTokens

/-!
# Letters in either case

A line may be entered in small letters or in capitals. Scanning it in capitals gives the same number
and the same tokens, except that strings, remarks and data items, whose text is kept as it was
entered, have their letters in capitals too (`scanLine_toUpper`). The reason is that the scanner
only looks at the `kind` of a character, which has no case, at the mark of an exponent, which is one
in either case, and at the capitals of a name. This is shown of one token first (`next_toUpper`),
then of a text, of the blanks at its end, and of the tokens that are joined.
-/

set_option autoImplicit false

namespace NumberedBasic.Token

/-- The token that is read when the text of a token is entered in capitals. Names and keywords are
in capitals already. -/
def toUpper : Token → Token
  | .string content => .string content.toUpper
  | .remark text => .remark text.toUpper
  | .datum text => .datum text.toUpper
  | t => t

/-! ## Characters -/

/-- A string is put in capitals character by character. -/
theorem toUpper_ofList (cs : List Char) :
    (String.ofList cs).toUpper = String.ofList (cs.map Char.toUpper) := by
  rw [← String.toList_inj, String.toUpper, String.toList_map, String.toList_ofList,
    String.toList_ofList]

/-- What is no letter has no capital. -/
theorem toUpper_of_isAlpha_eq_false {c : Char} (h : c.isAlpha = false) : c.toUpper = c :=
  toUpper_of_isLower_eq_false (Bool.or_eq_false_iff.mp h).2

/-- Capitals are blank where the characters are. -/
theorem isGap_toUpper (c : Char) : isGap c.toUpper = isGap c :=
  isGap_eq_of_kind_eq (kind_toUpper c)

/-- Capitals are letters where the characters are. -/
theorem isAlpha_toUpper (c : Char) : c.toUpper.isAlpha = c.isAlpha :=
  isAlpha_eq_of_kind_eq (kind_toUpper c)

/-- Capitals are digits where the characters are. -/
theorem isDigit_toUpper (c : Char) : c.toUpper.isDigit = c.isDigit :=
  isDigit_eq_of_kind_eq (kind_toUpper c)

/-- Capitals may stand in a data item where the characters may. -/
theorem isItem_toUpper (c : Char) : isItem c.toUpper = isItem c :=
  isItem_eq_of_kind_eq (kind_toUpper c)

/-- Capitals are trimmed where the characters are. -/
theorem isBlank_toUpper (c : Char) : Text.isBlank c.toUpper = Text.isBlank c := by
  cases lower : c.isLower with
  | false => rw [toUpper_of_isLower_eq_false lower]
  | true =>
    have shift := toNat_toUpper lower
    rw [isLower_iff_toNat] at lower
    simp only [Text.isBlank, Text.within, Text.blankRanges, List.any_cons, List.any_nil]
    rw [Bool.eq_iff_iff]
    simp
    omega

/-- A mark is the capital of no other character. -/
theorem beq_toUpper {x : Char} (mark : kind x = .mark x) (c : Char) :
    (c.toUpper == x) = (c == x) :=
  beq_eq_of_kind_eq (kind_toUpper c) mark

section Runs

variable {p : Char → Bool} (blind : ∀ c, p c.toUpper = p c)

include blind

/-- A property that capitals keep takes the same number of characters in capitals. -/
theorem takeWhile_toUpper (cs : List Char) :
    (cs.map Char.toUpper).takeWhile p = (cs.takeWhile p).map Char.toUpper := by
  rw [List.takeWhile_map, show p ∘ Char.toUpper = p from funext blind]

/-- A property that capitals keep leaves the same characters in capitals. -/
theorem dropWhile_toUpper (cs : List Char) :
    (cs.map Char.toUpper).dropWhile p = (cs.dropWhile p).map Char.toUpper := by
  rw [List.dropWhile_map, show p ∘ Char.toUpper = p from funext blind]

end Runs

/-- A digit is its own capital. -/
theorem toUpper_of_isDigit {c : Char} (digit : c.isDigit = true) : c.toUpper = c := by
  refine toUpper_of_isAlpha_eq_false ?_
  rw [Bool.eq_false_iff]
  intro alpha
  exact Bool.false_ne_true ((isDigit_of_isAlpha alpha).symm.trans digit)

/-- Digits have no case. -/
theorem takeWhile_isDigit_toUpper (cs : List Char) :
    (cs.map Char.toUpper).takeWhile Char.isDigit = cs.takeWhile Char.isDigit := by
  rw [takeWhile_toUpper isDigit_toUpper]
  refine (List.map_congr_left fun c member => ?_).trans (List.map_id _)
  exact toUpper_of_isDigit (List.mem_takeWhile_imp member)

/-! ## One token -/

/-- An exponent is read the same in capitals, and what is left is left in capitals. -/
theorem takeExponent_toUpper (cs : List Char) :
    takeExponent (cs.map Char.toUpper) =
      ((takeExponent cs).1, (takeExponent cs).2.map Char.toUpper) := by
  match cs with
  | [] | [_] => rfl
  | e :: c :: rest =>
    have digits := takeWhile_isDigit_toUpper (c :: rest)
    have left := dropWhile_toUpper isDigit_toUpper (c :: rest)
    have ahead : (rest.map Char.toUpper).head?.any Char.isDigit = rest.head?.any Char.isDigit := by
      cases rest with
      | nil => rfl
      | cons d rest => exact isDigit_toUpper d
    simp only [List.map_cons] at digits left
    simp only [List.map_cons, takeExponent, isMark_toUpper, isDigit_toUpper, digits, left, ahead,
      beq_toUpper (x := '+') rfl, beq_toUpper (x := '-') rfl]
    split
    · split
      · rfl
      · split
        next signed =>
          have sign : c = '+' ∨ c = '-' := by
            simpa using (Bool.and_eq_true_iff.mp signed).1
          have same : c.toUpper = c := by rcases sign with rfl | rfl <;> rfl
          rw [same, takeWhile_isDigit_toUpper, dropWhile_toUpper isDigit_toUpper]
        next => rfl
    · rfl

/-- A number is read the same in capitals, and what is left is left in capitals. -/
theorem takeNumber_toUpper (pointed : Bool) (cs : List Char) :
    takeNumber pointed (cs.map Char.toUpper) =
      ((takeNumber pointed cs).1, (takeNumber pointed cs).2.map Char.toUpper) := by
  induction cs generalizing pointed with
  | nil => rfl
  | cons c cs ih =>
    have exponent := takeExponent_toUpper (c :: cs)
    rw [List.map_cons] at exponent ⊢
    rw [takeNumber, takeNumber, isDigit_toUpper, beq_toUpper rfl, exponent]
    split
    next digit => rw [ih, toUpper_of_isDigit digit]
    next =>
      split
      next point =>
        have same : c = '.' := by simpa using (Bool.and_eq_true_iff.mp point).1
        rw [ih, show c.toUpper = c from same ▸ rfl]
      next => rfl

/-- A string in capitals is read as the string, in capitals. -/
theorem takeString_toUpper (cs : List Char) :
    takeString (cs.map Char.toUpper) =
      ((takeString cs).1.map Char.toUpper, (takeString cs).2.map Char.toUpper) := by
  fun_induction takeString cs with
  | case1 => rfl
  | case2 cs s rest h ih =>
    show takeString ('"' :: '"' :: cs.map Char.toUpper) = _
    rw [takeString, ih, h]
    rfl
  | case3 c cs notTwo quote =>
    obtain rfl : c = '"' := beq_iff_eq.mp quote
    have notTwo' (us : List Char) : '"' = '"' → cs.map Char.toUpper = '"' :: us → False := by
      intro _ starts
      obtain ⟨d, ds, rfl, same, -⟩ := List.map_eq_cons_iff.mp starts
      exact notTwo ds rfl (by rw [(eq_iff_of_kind_eq (kind_toUpper d) rfl).mp same])
    exact takeString.eq_3 _ _ notTwo'
  | case4 c cs notTwo plain s rest h ih =>
    have plain' : ¬(c.toUpper == '"') = true := by rwa [beq_toUpper rfl]
    have notTwo' (us : List Char) : c.toUpper = '"' → cs.map Char.toUpper = '"' :: us → False :=
      fun same _ => plain' (beq_iff_eq.mpr same)
    rw [List.map_cons, takeString.eq_3 _ _ notTwo', if_neg plain', ih, h]
    rfl

/-- A name or a keyword is read the same in capitals, and what is left is left in capitals. -/
theorem takeName_toUpper (seen : List Char) (digit : Bool) (c : Char) (cs : List Char) :
    takeName seen digit c.toUpper (cs.map Char.toUpper) =
      ((takeName seen digit c cs).1, (takeName seen digit c cs).2.map Char.toUpper) := by
  induction cs generalizing seen digit c with
  | nil =>
    rw [takeName.eq_def, takeName.eq_def seen digit c]
    simp only [toUpper_toUpper, beq_toUpper (x := '$') rfl]
    split
    · rfl
    · split <;> rfl
  | cons d cs ih =>
    rw [takeName.eq_def, takeName.eq_def seen digit c]
    simp only [List.map_cons, toUpper_toUpper, isAlpha_toUpper, isDigit_toUpper,
      beq_toUpper (x := '$') rfl, ih]
    split
    · rfl
    · split
      · rfl
      · split <;> rfl

/-- A run of characters that are no letters has no case, nor has the character before which it
ends. -/
theorem takeSymbol_toUpper (seen : List Char) {c : Char} (symbol : c.isAlpha = false)
    (cs : List Char) :
    takeSymbol seen c.toUpper (cs.map Char.toUpper) =
      ((takeSymbol seen c cs).1, (takeSymbol seen c cs).2.map Char.toUpper) := by
  rw [toUpper_of_isAlpha_eq_false symbol]
  induction cs generalizing seen c with
  | nil =>
    rw [takeSymbol.eq_def, takeSymbol.eq_def seen c]
    dsimp only
    split <;> rfl
  | cons d cs ih =>
    rw [takeSymbol.eq_def, takeSymbol.eq_def seen c]
    simp only [List.map_cons, isAlpha_toUpper, isDigit_toUpper, isGap_toUpper,
      beq_toUpper (x := '"') rfl]
    split
    · rfl
    · split
      next => rfl
      next goesOn =>
        have plain : d.isAlpha = false := by
          simp only [Bool.or_eq_true, not_or, Bool.not_eq_true] at goesOn
          exact goesOn.1.1.1
        rw [toUpper_of_isAlpha_eq_false plain, ih _ plain]

/-- A token with a fixed spelling is in capitals already. -/
theorem toUpper_of_isSpelled {t : Token} (spelled : t.isSpelled = true) : t.toUpper = t := by
  cases t with
  | string | remark | datum => cases spelled
  | _ => rfl

/-- A run that starts with no letter spells a token or is unknown. -/
theorem toUpper_takeSymbol (seen : List Char) (c : Char) (cs : List Char) :
    (takeSymbol seen c cs).1.toUpper = (takeSymbol seen c cs).1 := by
  induction cs generalizing seen c with
  | nil =>
    unfold takeSymbol
    dsimp only
    split
    next spelled => exact toUpper_of_isSpelled (isSpelled_of_ofSpelling? spelled)
    next => rfl
  | cons d cs ih =>
    unfold takeSymbol
    dsimp only
    split
    next spelled => exact toUpper_of_isSpelled (isSpelled_of_ofSpelling? spelled)
    next =>
      split
      · rfl
      · exact ih _ _

/-- A token in capitals is taken off a text in capitals, and the same follows it. -/
theorem next_toUpper (mode : Mode) (c : Char) (cs : List Char) :
    next mode c.toUpper (cs.map Char.toUpper) =
      ((next mode c cs).1.toUpper, (next mode c cs).2.1,
        (next mode c cs).2.2.map Char.toUpper) := by
  have whole : c.toUpper :: cs.map Char.toUpper = (c :: cs).map Char.toUpper := rfl
  -- The cases are those in which the scanner decides what kind of token comes next.
  by_cases other : mode = .remark
  · subst other
    show (Token.remark (String.ofList (c.toUpper :: cs.map Char.toUpper)), Mode.remark, []) =
      ((Token.remark (String.ofList (c :: cs)).toUpper), Mode.remark, [])
    rw [toUpper_ofList, whole]
  cases gap : isGap c with
  | true =>
    rw [next_of_gap other gap, next_of_gap other (by rwa [isGap_toUpper]), whole,
      takeWhile_toUpper isGap_toUpper, dropWhile_toUpper isGap_toUpper, List.length_map]
    rfl
  | false =>
    have gap' : isGap c.toUpper = false := by rwa [isGap_toUpper]
    by_cases quoted : c = '"'
    · subst quoted
      rw [show '"'.toUpper = '"' from rfl, next_quote other, next_quote other, takeString_toUpper]
      simp only [toUpper, toUpper_ofList]
    have quoted' : c.toUpper ≠ '"' := by rwa [ne_eq, eq_iff_of_kind_eq (kind_toUpper c) rfl]
    cases mode with
    | remark => exact absurd rfl other
    | data =>
      by_cases comma : c = ','
      · subst comma
        rfl
      by_cases colon : c = ':'
      · subst colon
        rfl
      have item : isItem c = true := by simp [isItem, comma, colon]
      rw [next_item gap quoted item, next_item gap' quoted' (by rwa [isItem_toUpper]),
        takeWhile_toUpper isItem_toUpper, dropWhile_toUpper isItem_toUpper]
      simp only [toUpper, toUpper_ofList, List.map_cons]
    | statements =>
      cases number : (c.isDigit || c == '.') with
      | true =>
        have number' : (c.toUpper.isDigit || c.toUpper == '.') = true := by
          rwa [isDigit_toUpper, beq_toUpper rfl]
        rw [next_of_number number, next_of_number number', whole, takeNumber_toUpper]
        rfl
      | false =>
        have number' : (c.toUpper.isDigit || c.toUpper == '.') = false := by
          rwa [isDigit_toUpper, beq_toUpper rfl]
        cases alpha : c.isAlpha with
        | true =>
          have spelled : (takeName [] false c cs).1.isSpelled = true := isSpelled_of_takeName rfl
          rw [next_of_alpha alpha, next_of_alpha (by rwa [isAlpha_toUpper]), takeName_toUpper]
          simp only [toUpper_of_isSpelled spelled]
        | false =>
          rw [next_of_symbol gap quoted number alpha,
            next_of_symbol gap' quoted' number' (by rwa [isAlpha_toUpper]),
            takeSymbol_toUpper [] alpha]
          simp only [toUpper_takeSymbol]

/-! ## Whole lines -/

/-- A text in capitals is scanned as the tokens of the text, in capitals. -/
theorem scan_toUpper (mode : Mode) (cs : List Char) :
    scan mode (cs.map Char.toUpper) = (scan mode cs).map toUpper := by
  fun_induction scan mode cs with
  | case1 => rw [List.map_nil, scan, List.map_nil]
  | case2 mode c cs found ih =>
    rw [List.map_cons, List.map_cons, scan_of_next (next_toUpper mode c cs), ih]

/-- A blank at the end is dropped in capitals as well. -/
theorem dropBlank_toUpper (ts : List Token) :
    dropBlank (ts.map toUpper) = (dropBlank ts).map toUpper := by
  unfold dropBlank
  rw [List.getLast?_map]
  cases ts.getLast? with
  | none => rfl
  | some t =>
    cases t with
    | blank => exact List.map_dropLast.symm
    | _ => rfl

/-- Capitals are no blanks, so a text in capitals is trimmed in the same place. -/
theorem ofList_trimEnd_toUpper (s : String) :
    String.ofList (Text.trimEnd s.toUpper.toList) =
      (String.ofList (Text.trimEnd s.toList)).toUpper := by
  rw [toUpper_ofList, String.toUpper, String.toList_map, Text.trimEnd, Text.dropEndWhile,
    ← List.map_reverse, dropWhile_toUpper isBlank_toUpper, ← List.map_reverse]
  rfl

/-- The last remark or data item is tidied in capitals as well. -/
theorem tidy_toUpper (ts : List Token) : tidy (ts.map toUpper) = (tidy ts).map toUpper := by
  unfold tidy
  rw [List.getLast?_map]
  cases ts.getLast? with
  | none => rfl
  | some t =>
    cases t with
    | remark s | datum s =>
      simp only [Option.map_some, toUpper, List.map_append, List.map_dropLast, List.map_cons,
        List.map_nil, ofList_trimEnd_toUpper]
    | _ => rfl

/-- Blanks are taken off the end of tokens in capitals as well. -/
theorem trimEnd_toUpper (ts : List Token) :
    trimEnd (ts.map toUpper) = (trimEnd ts).map toUpper := by
  rw [trimEnd_eq, trimEnd_eq, dropBlank_toUpper, tidy_toUpper]

/-- A word is joined with `GO` in capitals as well. -/
theorem goWord?_toUpper (a b c : Token) :
    goWord? a.toUpper b.toUpper c.toUpper = (goWord? a b c).map toUpper := by
  cases a with
  | name go =>
    cases b with
    | blank w =>
      cases c with
      | name sub =>
        cases go <;> cases sub <;> simp only [goWord?, toUpper] <;> first | rfl | (split <;> rfl)
      | word w =>
        cases w with
        | TO => cases go <;> simp only [goWord?, toUpper] <;> first | rfl | (split <;> rfl)
        | _ => cases go <;> rfl
      | _ => cases go <;> rfl
    | _ => cases go <;> rfl
  | _ => rfl

/-- Signs of a relation are joined in capitals as well. -/
theorem relation?_toUpper (a b : Token) :
    relation? a.toUpper b.toUpper = (relation? a b).map toUpper := by
  cases a with
  | operator a =>
    cases b with
    | operator b =>
      cases a <;> cases b <;> try rfl
      next a b => cases a <;> cases b <;> rfl
    | _ => cases a <;> rfl
  | _ => rfl

/-- All words are joined with `GO` in capitals as well. -/
theorem joinGo_toUpper (ts : List Token) : joinGo (ts.map toUpper) = (joinGo ts).map toUpper := by
  fun_induction joinGo ts with
  | case1 a b c ts t found ih =>
    simp only [List.map_cons]
    rw [joinGo, goWord?_toUpper, found]
    simp only [Option.map_some, ih]
  | case2 a b c ts none ih =>
    simp only [List.map_cons] at ih ⊢
    rw [joinGo, goWord?_toUpper, none]
    simp only [Option.map_none, ih]
  | case3 ts short =>
    rcases ts with _ | ⟨a, _ | ⟨b, _ | ⟨c, ts⟩⟩⟩
    · rfl
    · rfl
    · rfl
    · exact absurd rfl (short a b c ts)

/-- All signs of relations are joined in capitals as well. -/
theorem joinSigns_toUpper (ts : List Token) :
    joinSigns (ts.map toUpper) = (joinSigns ts).map toUpper := by
  fun_induction joinSigns ts with
  | case1 a b ts t found ih =>
    simp only [List.map_cons]
    rw [joinSigns, relation?_toUpper, found]
    simp only [Option.map_some, ih]
  | case2 a b ts none ih =>
    simp only [List.map_cons] at ih ⊢
    rw [joinSigns, relation?_toUpper, none]
    simp only [Option.map_none, ih]
  | case3 ts short =>
    rcases ts with _ | ⟨a, _ | ⟨b, ts⟩⟩
    · rfl
    · rfl
    · exact absurd rfl (short a b ts)

/-- What follows a line number, without the one blank that belongs to the number. -/
def afterNumber (cs : List Char) : List Char :=
  if cs.head? = some ' ' then cs.tail else cs

/-- Where a line number stands, it is taken off with the digits and the one blank after them. -/
theorem takeLineNumber_of_some {cs : List Char} {n : LineNumber}
    (number : lineNumberOfDigits? ((cs.dropWhile isGap).takeWhile Char.isDigit) = some n) :
    takeLineNumber cs = (some n, afterNumber ((cs.dropWhile isGap).dropWhile Char.isDigit)) := by
  unfold takeLineNumber afterNumber
  simp only [number]
  split
  next rest same => rw [same, List.head?_cons, if_pos rfl, List.tail_cons]
  next other =>
    rw [if_neg]
    intro blank
    obtain ⟨rest, same⟩ := List.head?_eq_some_iff.mp blank
    exact other rest same

/-- Only a blank has a blank as its capital. -/
theorem toUpper_eq_blank_iff (c : Char) : c.toUpper = ' ' ↔ c = ' ' := by
  cases alpha : c.isAlpha with
  | false => rw [toUpper_of_isAlpha_eq_false alpha]
  | true =>
    constructor
    · intro blank
      rw [← isAlpha_toUpper, blank] at alpha
      cases alpha
    · rintro rfl
      cases alpha

/-- The blank after a line number is taken off in capitals as well. -/
theorem afterNumber_toUpper (cs : List Char) :
    afterNumber (cs.map Char.toUpper) = (afterNumber cs).map Char.toUpper := by
  cases cs with
  | nil => rfl
  | cons c cs =>
    simp only [afterNumber, List.map_cons, List.head?_cons, Option.some.injEq,
      toUpper_eq_blank_iff, List.tail_cons]
    split <;> rfl

/-- A line number is read the same in capitals, and what is left is left in capitals. -/
theorem takeLineNumber_toUpper (cs : List Char) :
    takeLineNumber (cs.map Char.toUpper) =
      ((takeLineNumber cs).1, (takeLineNumber cs).2.map Char.toUpper) := by
  have digits : ((cs.map Char.toUpper).dropWhile isGap).takeWhile Char.isDigit =
      (cs.dropWhile isGap).takeWhile Char.isDigit := by
    rw [dropWhile_toUpper isGap_toUpper, takeWhile_isDigit_toUpper]
  cases number : lineNumberOfDigits? ((cs.dropWhile isGap).takeWhile Char.isDigit) with
  | none => simp only [takeLineNumber, digits, number]
  | some n =>
    rw [takeLineNumber_of_some number, takeLineNumber_of_some (by rwa [digits]),
      dropWhile_toUpper isGap_toUpper, dropWhile_toUpper isDigit_toUpper, afterNumber_toUpper]

/-- Scanning takes no notice of the case of letters. A text in capitals has the line number of the
text itself, and its tokens, of which the strings, the remarks and the data items are in
capitals. -/
theorem scanLine_toUpper (text : String) :
    scanLine text.toUpper.toList =
      ((scanLine text.toList).1, (scanLine text.toList).2.map toUpper) := by
  have closed (ts : List Token) :
      ts.map toUpper ++ [endOfLine] = (ts ++ [endOfLine]).map toUpper := by
    rw [List.map_append]
    rfl
  rw [String.toUpper, String.toList_map]
  simp only [scanLine_eq, takeLineNumber_toUpper, scan_toUpper, trimEnd_toUpper, closed,
    joinGo_toUpper, joinSigns_toUpper]

end NumberedBasic.Token
