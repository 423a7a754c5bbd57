import NumberedBasic.Proofs.ListingRoundTrip

/-!
# Lists of data

A list of data items is written with commas between the items: a quoted item as a string with its
quotes doubled, an unquoted one as it stands, and an empty one as nothing at all. `Datum.Plain` says
which unquoted items can be written so. `scan_list` follows the scanner through the text of such a
list, `readData_of_tokens` the reader through its tokens, and `data_lists_read_back` puts the two
together.
-/

set_option autoImplicit false

namespace NumberedBasic

/-! ## Tokens that stay as they are -/

namespace Token

variable {ts : List Token}

/-- Where there are no names, no `GO` is joined with a word after it. -/
theorem joinGo_eq_self (free : ∀ n, .name n ∉ ts) : joinGo ts = ts := by
  induction ts with
  | nil => rfl
  | cons a ts ih =>
    rw [joinGo_cons, ih fun n member => free n (List.mem_cons_of_mem a member)]
    rintro b c rest -
    rw [Option.eq_none_iff_forall_ne_some]
    intro t spelled
    exact free (.plain "GO") (by simp [(goWord?_eq_some spelled).1])

/-- Where there are no operators, no relations are joined. -/
theorem joinSigns_eq_self (free : ∀ op, .operator op ∉ ts) : joinSigns ts = ts := by
  induction ts with
  | nil => rfl
  | cons a ts ih =>
    rw [joinSigns_cons, ih fun op member => free op (List.mem_cons_of_mem a member)]
    rintro b rest -
    rw [Option.eq_none_iff_forall_ne_some]
    intro t spelled
    obtain ⟨x, -, -, -, rfl, -⟩ := relation?_eq_some spelled
    exact free (.binary x) List.mem_cons_self

/-- Taking blanks off the end stops at the last part, if that is more than blanks. -/
theorem trimEnd_append_of_ne_nil {us : List Token} (full : trimEnd us ≠ []) :
    trimEnd (ts ++ us) = ts ++ trimEnd us := by
  induction ts with
  | nil => rfl
  | cons t ts ih =>
    rw [List.cons_append, trimEnd_cons_of_ne_nil, ih, List.cons_append]
    rw [ih]
    simp [full]

/-- A blank that nothing follows is dropped. -/
theorem filter_trimEnd_blank (width : Nat) :
    (trimEnd (.blank width :: ts)).filter isSolid = (trimEnd ts).filter isSolid := by
  by_cases full : trimEnd ts = []
  · rcases trimEnd_eq_nil full with rfl | ⟨w, rfl⟩ <;> rfl
  · rw [trimEnd_cons_of_ne_nil full]
    rfl

/-- The word `DATA` is recognised wherever its letters stand first, with or without a blank after
it. -/
theorem takeName_data (cs : List Char) :
    takeName [] false 'D' ('A' :: 'T' :: 'A' :: cs) = (.word .DATA, cs) := by
  rw [takeName_of_goesOn (by decide) (by decide) (by decide),
    takeName_of_goesOn (by decide) (by decide) (by decide),
    takeName_of_goesOn (by decide) (by decide) (by decide)]
  exact takeName_of_spelled (by decide)

/-- A string is scanned from its text, whatever follows, unless that is a quote. -/
theorem scan_quote {mode : Mode} (other : mode ≠ .remark) (s : String) {us : List Char}
    (stop : us.head? ≠ some '"') :
    scan mode ((quote s).toList ++ us) = .string s :: scan mode us := by
  have taken := takeString_quoted s.toList stop
  rw [quote, String.toList_ofList, List.append_assoc, List.cons_append, List.singleton_append,
    scan_of_next (next_quote other), taken, String.ofList_toList]

/-- A text in quotes is scanned as one string. -/
theorem scanLine_quote (s : String) :
    scanLine (quote s).toList = (none, [.string s, .endOfLine]) := by
  have scanned : scan .statements (quote s).toList = [.string s] := by
    have whole : scan .statements ((quote s).toList ++ []) = .string s :: scan .statements [] :=
      scan_quote (by decide) s nofun
    rwa [List.append_nil, scan] at whole
  have unnumbered : takeLineNumber (quote s).toList = (none, (quote s).toList) := by
    apply takeLineNumber_of_not_digitAhead
    rw [quote, String.toList_ofList]
    rfl
  rw [scanLine_eq, unnumbered]
  dsimp only
  rw [scanned]
  rfl

end Token

namespace Datum

open Token (isGap isItem)

/-! ## The text of a list -/

/-- The item as it is written in a list. -/
def text : Datum → String
  | .quoted s => (Token.string s).text
  | .unquoted s => s

/-- An unquoted item is plain if nothing in it divides a list and no quote or blank is taken off
it. All quoted items are. -/
def Plain : Datum → Prop
  | .quoted _ => True
  | .unquoted s =>
    ',' ∉ s.toList ∧ ':' ∉ s.toList ∧ s.toList.head? ≠ some '"' ∧ Text.trim s.toList = s.toList

instance : DecidablePred Plain
  | .quoted _ => .isTrue trivial
  | .unquoted _ => inferInstanceAs (Decidable (_ ∧ _))

/-- The tokens an item is scanned as. -/
def tokens : Datum → List Token
  | .quoted s => [.string s]
  | .unquoted s => if s = "" then [] else [.datum s]

/-- The tokens a list is scanned as. -/
def listTokens (items : List Datum) : List Token :=
  [Token.comma].intercalate (items.map tokens)

/-- The characters of a list. -/
def listText (items : List Datum) : List Char :=
  [','].intercalate (items.map fun item => item.text.toList)

variable {item : Datum} {items : List Datum} {s : String}

/-- All characters of a plain item may stand in an item. -/
theorem isItem_of_plain (plain : (unquoted s).Plain) : ∀ c ∈ s.toList, isItem c = true := by
  intro c member
  have comma : c ≠ ',' := ne_of_mem_of_not_mem member plain.1
  have colon : c ≠ ':' := ne_of_mem_of_not_mem member plain.2.1
  simp [isItem, comma, colon]

/-- A plain item ends in no blank. -/
theorem trimEnd_of_plain (plain : (unquoted s).Plain) : Text.trimEnd s.toList = s.toList := by
  have same : Text.trim s.toList = s.toList := plain.2.2.2
  rw [← same]
  exact Token.trimEnd_trimEnd _

/-- A text that a trim leaves alone starts with no blank. -/
theorem isBlank_head_of_trim {c : Char} {cs : List Char} (same : Text.trim (c :: cs) = c :: cs) :
    Text.isBlank c = false := by
  rw [Bool.eq_false_iff]
  intro blank
  have short : (Text.trim (c :: cs)).length ≤ cs.length := by
    have inner : (Text.trim (c :: cs)).length ≤ (Text.trimStart (c :: cs)).length :=
      (List.rdropWhile_prefix Text.isBlank _).length_le
    rw [Text.trimStart, List.dropWhile_cons_of_pos blank] at inner
    exact inner.trans (Token.length_dropWhile_le _ cs)
  rw [same, List.length_cons] at short
  omega

/-- What trimming leaves as it is does not begin with a blank. -/
theorem isGap_head_of_trim {c : Char} {cs : List Char} (same : Text.trim (c :: cs) = c :: cs) :
    isGap c = false := by
  have solid := isBlank_head_of_trim same
  rw [Bool.eq_false_iff]
  intro gap
  obtain rfl | rfl : c = ' ' ∨ c = '\t' := by simpa [isGap] using gap
  · revert solid
    decide
  · revert solid
    decide

/-- A list does not begin with a blank, if its first item is plain. -/
theorem head?_text (plain : item.Plain) {us : List Char} (stop : us.head?.any isGap = false) :
    (item.text.toList ++ us).head?.any isGap = false := by
  cases item with
  | quoted s => rw [text, Token.text, Token.quote, String.toList_ofList]; rfl
  | unquoted s =>
    have same := plain.2.2.2
    rw [text]
    cases chars : s.toList with
    | nil => exact stop
    | cons c cs =>
      rw [chars] at same
      simpa using isGap_head_of_trim same

/-- An item is scanned from its text, if a comma or the end of the line follows. -/
theorem scan_text (plain : item.Plain) {us : List Char} (stop : us.head?.all (· == ',') = true) :
    Token.scan .data (item.text.toList ++ us) = item.tokens ++ Token.scan .data us := by
  have next : us = [] ∨ ∃ rest, us = ',' :: rest := by
    cases us with
    | nil => exact .inl rfl
    | cons u rest => exact .inr ⟨rest, by simpa using stop⟩
  cases item with
  | quoted s =>
    apply Token.scan_quote (by decide)
    rcases next with rfl | ⟨rest, rfl⟩ <;> simp
  | unquoted s =>
    have stops : us.head?.any isItem = false := by
      rcases next with rfl | ⟨rest, rfl⟩ <;> rfl
    rw [text, tokens]
    split
    · next empty =>
      subst empty
      rfl
    · next full =>
      have items := isItem_of_plain plain
      have same := plain.2.2.2
      have unquoted := plain.2.2.1
      cases chars : s.toList with
      | nil => exact absurd (String.toList_eq_nil_iff.mp chars) full
      | cons c cs =>
        rw [chars] at items same unquoted
        have other : c ≠ '"' := by simpa using unquoted
        obtain ⟨taken, left⟩ :=
          Token.span_append (fun d member => items d (List.mem_cons_of_mem c member)) stops
        rw [List.cons_append, Token.scan_of_next (Token.next_item (isGap_head_of_trim same) other
          (items c List.mem_cons_self)), taken, left, ← chars, String.ofList_toList]
        rfl

/-- In the text of a list, a comma parts the first item from the others. -/
theorem listText_cons (full : items ≠ []) :
    listText (item :: items) = item.text.toList ++ ',' :: listText items := by
  obtain ⟨next, more, rfl⟩ := List.exists_cons_of_ne_nil full
  simp [listText, List.intercalate_cons_cons]

/-- In the tokens of a list, a comma parts those of the first item from those of the others. -/
theorem listTokens_cons (full : items ≠ []) :
    listTokens (item :: items) = item.tokens ++ .comma :: listTokens items := by
  obtain ⟨next, more, rfl⟩ := List.exists_cons_of_ne_nil full
  simp [listTokens, List.intercalate_cons_cons]

/-- The text of a list of one item is that of the item. -/
@[simp] theorem listText_singleton (item : Datum) : listText [item] = item.text.toList :=
  List.intercalate_singleton

/-- The tokens of a list of one item are those of the item. -/
@[simp] theorem listTokens_singleton (item : Datum) : listTokens [item] = item.tokens :=
  List.intercalate_singleton

/-- No blank is lost between a keyword and a list. -/
theorem head?_listText (plain : ∀ item ∈ items, item.Plain) :
    (listText items).head?.any isGap = false := by
  cases items with
  | nil => rfl
  | cons item items =>
    have first := plain item List.mem_cons_self
    by_cases full : items = []
    · subst full
      have alone : (item.text.toList ++ []).head?.any isGap = false := head?_text first rfl
      rwa [List.append_nil, ← listText_singleton] at alone
    · rw [listText_cons full]
      exact head?_text first rfl

/-- The text of a list of plain items is scanned as the tokens of the list. -/
theorem scan_list (full : items ≠ []) (plain : ∀ item ∈ items, item.Plain) :
    Token.scan .data (listText items) = listTokens items := by
  induction items with
  | nil => exact absurd rfl full
  | cons item items ih =>
    have first := plain item List.mem_cons_self
    by_cases last : items = []
    · subst last
      have alone : Token.scan .data (item.text.toList ++ []) = item.tokens ++ Token.scan .data [] :=
        scan_text first rfl
      rwa [List.append_nil, Token.scan, List.append_nil, ← listText_singleton,
        ← listTokens_singleton] at alone
    · have others := ih last fun other member => plain other (List.mem_cons_of_mem item member)
      have comma : Token.next .data ',' (listText items) = (.comma, .data, listText items) := rfl
      rw [listText_cons last, listTokens_cons last, scan_text first rfl, Token.scan_of_next comma,
        others]

/-! ## The tokens of a list -/

/-- No blank is taken off the tokens of a plain item. -/
theorem trimEnd_tokens (plain : item.Plain) : Token.trimEnd item.tokens = item.tokens := by
  cases item with
  | quoted s => rfl
  | unquoted s =>
    rw [tokens]
    split
    · rfl
    · have trimmed := Token.trimEnd_datum s.toList
      rwa [trimEnd_of_plain plain, String.ofList_toList] at trimmed

/-- No blank is taken off the tokens of a list of plain items. -/
theorem trimEnd_listTokens (plain : ∀ item ∈ items, item.Plain) :
    Token.trimEnd (listTokens items) = listTokens items := by
  induction items with
  | nil => rfl
  | cons item items ih =>
    by_cases last : items = []
    · subst last
      simpa using trimEnd_tokens (plain item List.mem_cons_self)
    · have others := ih fun other member => plain other (List.mem_cons_of_mem item member)
      have comma : Token.trimEnd (.comma :: listTokens items) = .comma :: listTokens items := by
        rw [Token.trimEnd_cons_of_stays rfl, others]
      rw [listTokens_cons last, Token.trimEnd_append_of_ne_nil (by rw [comma]; nofun), comma]

/-- The tokens of an item are strings and unquoted items. -/
theorem mem_tokens {t : Token} (member : t ∈ item.tokens) :
    (∃ s, t = .string s) ∨ ∃ s, t = .datum s := by
  cases item with
  | quoted s => exact .inl ⟨s, List.mem_singleton.mp member⟩
  | unquoted s =>
    rw [tokens] at member
    split at member
    · cases member
    · exact .inr ⟨s, List.mem_singleton.mp member⟩

/-- The tokens of a list are commas, strings and unquoted items. -/
theorem mem_listTokens {t : Token} (member : t ∈ listTokens items) :
    t = .comma ∨ (∃ s, t = .string s) ∨ ∃ s, t = .datum s := by
  induction items with
  | nil => cases member
  | cons item items ih =>
    by_cases last : items = []
    · subst last
      rw [listTokens_singleton] at member
      exact .inr (mem_tokens member)
    · rw [listTokens_cons last, List.mem_append, List.mem_cons] at member
      rcases member with own | rfl | later
      · exact .inr (mem_tokens own)
      · exact .inl rfl
      · exact ih later

/-- All tokens of a list are solid. -/
theorem filter_listTokens (items : List Datum) :
    (listTokens items).filter Token.isSolid = listTokens items := by
  rw [List.filter_eq_self]
  intro t member
  rcases mem_listTokens member with rfl | ⟨s, rfl⟩ | ⟨s, rfl⟩ <;> rfl

/-! ## Reading a list -/

/-- After an item and a comma, reading goes on with the next item. -/
theorem afterItem_comma (item : Datum) (column : Span) (ts : List Lexeme) :
    Command.afterItem item (⟨.comma, column⟩ :: ts) =
      (item :: (Command.readData ts).1, (Command.readData ts).2) := rfl

/-- After an item and the end of the line there are no further items. -/
theorem afterItem_endOfLine (item : Datum) (column : Span) (ts : List Lexeme) :
    Command.afterItem item (⟨.endOfLine, column⟩ :: ts) =
      ([item], ⟨.endOfLine, column⟩ :: ts) := rfl

/-- An item is read from its tokens, and reading goes on with what follows them. -/
theorem readData_of_item (plain : item.Plain) {ts : List Lexeme} {t : Token} {rest : List Token}
    (stop : t = .comma ∨ t = .endOfLine) (same : ts.map Lexeme.token = item.tokens ++ t :: rest) :
    ∃ column after, after.map Lexeme.token = rest ∧
      Command.readData ts = Command.afterItem item (⟨t, column⟩ :: after) := by
  cases item with
  | quoted s =>
    obtain ⟨⟨_, own⟩, ts, rfl, rfl, behind⟩ := List.map_eq_cons_iff.mp same
    obtain ⟨⟨_, column⟩, after, rfl, rfl, left⟩ := List.map_eq_cons_iff.mp behind
    exact ⟨column, after, left, Command.readData_string ..⟩
  | unquoted s =>
    rw [tokens] at same
    split at same
    · next empty =>
      subst empty
      obtain ⟨⟨_, column⟩, after, rfl, rfl, left⟩ := List.map_eq_cons_iff.mp same
      refine ⟨column, after, left, ?_⟩
      rcases stop with comma | close
      · cases comma
        rfl
      · cases close
        rfl
    · have whole : Command.unquotedItem s = .unquoted s := by
        rw [Command.unquotedItem, plain.2.2.2, String.ofList_toList]
      obtain ⟨⟨_, own⟩, ts, rfl, rfl, behind⟩ := List.map_eq_cons_iff.mp same
      obtain ⟨⟨_, column⟩, after, rfl, rfl, left⟩ := List.map_eq_cons_iff.mp behind
      refine ⟨column, after, left, ?_⟩
      rw [Command.readData_datum, whole]

/-- From the tokens of a list, its items are read back in order. -/
theorem readData_of_tokens (full : items ≠ []) (plain : ∀ item ∈ items, item.Plain)
    {ts : List Lexeme} (same : ts.map Lexeme.token = listTokens items ++ [.endOfLine]) :
    ∃ column, Command.readData ts = (items, [⟨.endOfLine, column⟩]) := by
  induction items generalizing ts with
  | nil => exact absurd rfl full
  | cons item items ih =>
    have first := plain item List.mem_cons_self
    by_cases last : items = []
    · subst last
      rw [listTokens_singleton] at same
      obtain ⟨column, after, none, read⟩ := readData_of_item first (.inr rfl) same
      obtain rfl := List.map_eq_nil_iff.mp none
      exact ⟨column, read.trans (afterItem_endOfLine ..)⟩
    · rw [listTokens_cons last, List.append_assoc] at same
      obtain ⟨column, after, others, read⟩ := readData_of_item first (.inl rfl) same
      obtain ⟨close, more⟩ :=
        ih last (fun other member => plain other (List.mem_cons_of_mem item member)) others
      refine ⟨close, ?_⟩
      rw [read, afterItem_comma, more]

/-! ## A line of data -/

/-- A `DATA` line with these items. -/
def lineText (items : List Datum) : String :=
  "DATA " ++ ",".intercalate (items.map text)

/-- The characters of a `DATA` line: the word, a blank and the list. -/
theorem toList_lineText (items : List Datum) :
    (lineText items).toList = 'D' :: 'A' :: 'T' :: 'A' :: ' ' :: listText items := by
  rw [lineText, String.toList_append, String.toList_intercalate, List.map_map]
  rfl

/-- The tokens that can stand in the line, blanks apart. -/
theorem mem_data {ts : List Token}
    (solid : ts.filter Token.isSolid = listTokens items ++ [.endOfLine]) {t : Token}
    (firm : t.isSolid = true) (member : t ∈ .word .DATA :: ts) :
    t = .word .DATA ∨ t = .endOfLine ∨ t = .comma ∨ (∃ s, t = .string s) ∨ ∃ s, t = .datum s := by
  rcases List.mem_cons.mp member with word | later
  · exact .inl word
  · have kept : t ∈ listTokens items ++ [.endOfLine] := by
      rw [← solid]
      exact List.mem_filter.mpr ⟨later, firm⟩
    rcases List.mem_append.mp kept with listed | close
    · exact .inr (.inr (mem_listTokens listed))
    · exact .inr (.inl (List.mem_singleton.mp close))

/-- The tokens of the line are its keyword, the tokens of the list and blanks. -/
theorem exists_scanLine_lineText (full : items ≠ []) (plain : ∀ item ∈ items, item.Plain) :
    ∃ ts, Token.scanLine (lineText items).toList = (none, .word .DATA :: ts) ∧
      ts.filter Token.isSolid = listTokens items ++ [.endOfLine] := by
  have gap : ∀ c ∈ [' '], isGap c = true := by simp [isGap]
  have blank := Token.span_append gap (head?_listText plain)
  have scanned : Token.scan .statements (lineText items).toList =
      .word .DATA :: .blank 1 :: listTokens items := by
    have keyword : Token.next .statements 'D' ('A' :: 'T' :: 'A' :: ' ' :: listText items) =
        (.word .DATA, .data, ' ' :: listText items) := by
      rw [Token.next_of_alpha (by decide), Token.takeName_data]
      rfl
    have gap : Token.next .data ' ' (listText items) = (.blank 1, .data, listText items) := by
      rw [Token.next_of_gap (by decide) rfl, ← List.singleton_append, blank.1, blank.2]
      rfl
    rw [toList_lineText, Token.scan_of_next keyword, Token.scan_of_next gap, scan_list full plain]
  have unnumbered :
      Token.takeLineNumber (lineText items).toList = (none, (lineText items).toList) := by
    apply Token.takeLineNumber_of_not_digitAhead
    rw [toList_lineText]
    rfl
  have solid : (Token.trimEnd (.blank 1 :: listTokens items) ++ [Token.endOfLine]).filter
      Token.isSolid = listTokens items ++ [.endOfLine] := by
    rw [List.filter_append, Token.filter_trimEnd_blank, trimEnd_listTokens plain,
      filter_listTokens]
    rfl
  -- Neither pass that joins tokens finds anything to join: there are no names and no operators.
  refine ⟨_, ?_, solid⟩
  rw [Token.scanLine_eq, unnumbered]
  dsimp only
  rw [scanned, Token.trimEnd_cons_of_stays rfl, List.cons_append, Token.joinGo_eq_self,
    Token.joinSigns_eq_self]
  · intro op member
    rcases mem_data solid rfl member with h | h | h | ⟨s, h⟩ | ⟨s, h⟩ <;> cases h
  · intro n member
    rcases mem_data solid rfl member with h | h | h | ⟨s, h⟩ | ⟨s, h⟩ <;> cases h

/-- The text of a list ends with no line end: its last character is a quote or no blank. -/
theorem closed_text (plain : item.Plain) : Token.Closed item.text.toList := by
  cases item with
  | quoted s =>
    have quote : Token.Closed ['"'] := Token.closed_singleton (by decide)
    rw [text, Token.text, Token.quote, String.toList_ofList]
    exact quote.append (by simp)
  | unquoted s =>
    rw [text, ← trimEnd_of_plain plain]
    exact Token.closed_trimEnd _

/-- A character in front that is no line end keeps a text from being closed by one. -/
theorem closed_cons {c : Char} {cs : List Char} (first : c ≠ '\r' ∧ c ≠ '\n')
    (closed : Token.Closed cs) : Token.Closed (c :: cs) := by
  by_cases full : cs = []
  · subst full
    exact Token.closed_singleton first
  · rw [← List.singleton_append]
    exact closed.append full

/-- No line end closes the text of a list of plain items. -/
theorem closed_listText (plain : ∀ item ∈ items, item.Plain) : Token.Closed (listText items) := by
  induction items with
  | nil => exact nofun
  | cons item items ih =>
    by_cases last : items = []
    · subst last
      rw [listText_singleton]
      exact closed_text (plain item List.mem_cons_self)
    · have others := ih fun other member => plain other (List.mem_cons_of_mem item member)
      rw [listText_cons last]
      exact (closed_cons (by decide) others).append nofun

/-- A `DATA` statement has the items that are read after its word. -/
theorem readStatement_data (column : Span) (ts : List Lexeme) :
    Command.readStatement (⟨.word .DATA, column⟩ :: ts) =
      .ok ([.data column (Command.readData ts).1], (Command.readData ts).2) :=
  rfl

/-- A line whose tokens are `DATA` and those of a list is one statement with the items of the
list. -/
theorem readLine_data (full : items ≠ []) (plain : ∀ item ∈ items, item.Plain) {ts : List Token}
    (solid : ts.filter Token.isSolid = listTokens items ++ [.endOfLine]) :
    Statement.readLine (Lexeme.place 0 (.word .DATA :: ts)) =
      .ok #[.run (.data ⟨0, 4⟩ items)] := by
  obtain ⟨column, read⟩ := readData_of_tokens full plain ((Lexeme.map_token_place 4 ts).trans solid)
  have placed : Lexeme.place 0 (.word .DATA :: ts) =
      ⟨.word .DATA, 0, 4⟩ :: Lexeme.place 4 ts := Lexeme.place_of_isSolid rfl 0 ts
  have taken : Command.readStatement (⟨.word .DATA, 0, 4⟩ :: Lexeme.place 4 ts) =
      .ok ([.data ⟨0, 4⟩ items], [⟨.endOfLine, column⟩]) := by
    rw [readStatement_data, read]
  rw [placed, Statement.readLine, List.length_cons, Statement.readTo, taken]
  · rfl
  all_goals simp

/-- A list of plain items, written after `DATA` with commas in between, is read as one statement
that has these items. In particular every string is scanned from its own text. -/
theorem data_lists_read_back (items : List Datum) (full : items ≠ [])
    (plain : ∀ item ∈ items, item.Plain) :
    (Token.scanLine (lineText items).toList).1 = none ∧
      Statement.parse none (Token.scanLine (lineText items).toList).2 =
        .ok [.run (.data ⟨0, 4⟩ items)] ∧
      (Line.ofText (lineText items)).number = none ∧
      (Line.ofText (lineText items)).statements = .ok [.run (.data ⟨0, 4⟩ items)] ∧
      ∀ s, Token.scanLine (Token.string s).text.toList = (none, [.string s, .endOfLine]) := by
  obtain ⟨ts, scanned, solid⟩ := exists_scanLine_lineText full plain
  have code := readLine_data full plain solid
  have closed : Token.Closed (lineText items).toList := by
    have ending : Token.Closed (' ' :: listText items) :=
      closed_cons (by decide) (closed_listText plain)
    rw [toList_lineText]
    show Token.Closed (['D', 'A', 'T', 'A'] ++ ' ' :: listText items)
    exact ending.append nofun
  have line : Line.ofText (lineText items) = ⟨none, .word .DATA :: ts⟩ := by
    rw [Line.ofText, closed.dropLineEnd, scanned]
  refine ⟨by rw [scanned], ?_, by rw [line], ?_, Token.scanLine_quote⟩
  · rw [scanned, Statement.parse_eq, Statement.readTokens, code]
  · rw [line, Line.statements_eq_ok_iff]
    refine ⟨fun s member => ?_, _, code, rfl⟩
    rcases mem_data solid rfl member with h | h | h | ⟨s, h⟩ | ⟨s, h⟩ <;> cases h

/-- Quotes, commas, colons and blanks inside quotes, blanks and quotes inside a bare item, and empty
items at both ends. -/
theorem data_lists_read_back_mixed :
    lineText [.unquoted "", .quoted " a,\"b\":", .unquoted "x \"y", .quoted "", .unquoted ""] =
        "DATA ,\" a,\"\"b\"\":\",x \"y,\"\"," ∧
      (Line.ofText "DATA ,\" a,\"\"b\"\":\",x \"y,\"\",").statements =
        .ok [.run (.data ⟨0, 4⟩
          [.unquoted "", .quoted " a,\"b\":", .unquoted "x \"y", .quoted "", .unquoted ""])] :=
  ⟨by decide +kernel,
    (data_lists_read_back
      [.unquoted "", .quoted " a,\"b\":", .unquoted "x \"y", .quoted "", .unquoted ""] nofun
      (by decide +kernel)).2.2.2.1⟩

end Datum

end NumberedBasic
