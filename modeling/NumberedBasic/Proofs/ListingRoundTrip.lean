import NumberedBasic.Proofs.LastDefinition
import NumberedBasic.Proofs.ListedTokens
import NumberedBasic.Proofs.Precedence
import NumberedBasic.Proofs.SteadyStatements

/-!
# Reading a listed line back

A line that is accepted can be listed and entered again: it keeps its number, and the same
statements are read from it, with the same columns. Main statement: `Line.listing_round_trip`.
-/

set_option autoImplicit false

namespace NumberedBasic

namespace Token

/-! ## Line numbers -/

/-- A line number is read back from its digits. -/
theorem lineNumberOfDigits?_toDigits {n : LineNumber} (bound : n ≤ maxLineNumber) :
    lineNumberOfDigits? (Nat.toDigits 10 n) = some n := by
  have value : Decimal.value (Nat.toDigits 10 n) = n := Nat.ofDigitChars_ten_toDigits
  simp [lineNumberOfDigits?, value, bound]

/-- A line number and the blank behind it are taken off a listed line. -/
theorem takeLineNumber_toDigits {n : LineNumber} (bound : n ≤ maxLineNumber) (cs : List Char) :
    takeLineNumber (Nat.toDigits 10 n ++ ' ' :: cs) = (some n, cs) := by
  have digits : ∀ d ∈ Nat.toDigits 10 n, d.isDigit = true :=
    fun _ => Nat.isDigit_of_mem_toDigits (by decide) (by decide)
  have stop : (' ' :: cs).head?.any Char.isDigit = false := rfl
  obtain ⟨taken, left⟩ := span_append digits stop
  have body : (Nat.toDigits 10 n ++ ' ' :: cs).dropWhile isGap =
      Nat.toDigits 10 n ++ ' ' :: cs := by
    obtain ⟨d, ds, split⟩ := List.exists_cons_of_ne_nil (Nat.toDigits_ne_nil (n := n) (b := 10))
    have solid : ¬isGap d = true := by
      intro gap
      have digit := digits d (by simp [split])
      rw [isDigit_of_isGap gap] at digit
      cases digit
    rw [split, List.cons_append, List.dropWhile_cons_of_neg solid]
  simp only [takeLineNumber, body, taken, left, lineNumberOfDigits?_toDigits bound]

/-- A text that does not start with a digit has no line number. -/
theorem takeLineNumber_of_not_digitAhead {cs : List Char}
    (h : digitAhead (cs.dropWhile isGap) = false) : takeLineNumber cs = (none, cs) := by
  have digits : (cs.dropWhile isGap).takeWhile Char.isDigit = [] := by
    cases body : cs.dropWhile isGap with
    | nil => rfl
    | cons d ds =>
      rw [body] at h
      have other : ¬d.isDigit = true := by simpa [digitAhead] using h
      rw [List.takeWhile_cons_of_neg other]
  simp only [takeLineNumber, digits]
  rfl

/-- A text that starts with a digit is scanned as a number and more. -/
theorem exists_scan_eq_number {cs : List Char} (h : digitAhead cs = true) :
    ∃ s ts, scan .statements cs = .number s :: ts := by
  cases cs with
  | nil => cases h
  | cons d ds =>
    have digit : d.isDigit = true := h
    exact ⟨_, _, scan_of_next (next_of_number (by rw [digit, Bool.true_or]))⟩

/-- A text whose first character after the gaps is a digit starts with a number. -/
theorem scan_of_digitAhead {cs : List Char} (h : digitAhead (cs.dropWhile isGap) = true) :
    ∃ s ts, scan .statements cs = .number s :: ts ∨
      ∃ w, scan .statements cs = .blank w :: .number s :: ts := by
  obtain ⟨s, ts, number⟩ := exists_scan_eq_number h
  refine ⟨s, ts, ?_⟩
  cases cs with
  | nil => cases h
  | cons c cs =>
    cases gap : isGap c with
    | false =>
      rw [List.dropWhile_cons_of_neg (by simp [gap])] at number
      exact .inl number
    | true =>
      rw [scan_of_next (next_of_gap (by simp) gap), number]
      exact .inr ⟨_, rfl⟩

end Token

namespace Lexeme

open Token (Idle)

/-- A line may end with an idle end or without it. -/
theorem Idle.alike {rest : List Token} (idle : Idle rest) (start start' : Nat) :
    Alike (place start (rest ++ [.endOfLine])) (place start' [.endOfLine]) := by
  induction idle generalizing start with
  | nil => exact .close
  | blank more ih => exact ih _
  | remark => exact .remark
  | datum => exact .datum

/-- A line is alike with its idle end and without it. -/
theorem alike_place (us : List Token) {rest : List Token} (idle : Idle rest) (start : Nat) :
    Alike (place start (us ++ (rest ++ [.endOfLine]))) (place start (us ++ [.endOfLine])) := by
  induction us generalizing start with
  | nil => exact Idle.alike idle start start
  | cons t us ih =>
    by_cases solid : t.isSolid = true
    · rw [List.cons_append, List.cons_append, place_of_isSolid solid, place_of_isSolid solid]
      exact .cons (ih _)
    · rw [List.cons_append, List.cons_append, place_of_not_isSolid solid,
        place_of_not_isSolid solid]
      exact ih _

/-- No relation follows another among the tokens of lexemes that are spaced. -/
theorem apart_of_spaced {us rest : List Token} {start : Nat} (inner : .endOfLine ∉ us)
    (spaced : Spaced (place start (us ++ rest))) : Token.Apart us := by
  have blank : ∀ t : Token, ¬t.isSolid = true → t.isRelation = false := by
    intro t hollow
    cases t with
    | blank w => rfl
    | _ => exact absurd rfl hollow
  induction us generalizing start with
  | nil => exact List.IsChain.nil
  | cons a us ih =>
    rw [List.mem_cons, not_or] at inner
    rw [List.cons_append] at spaced
    by_cases solid : a.isSolid = true
    · rw [place_of_isSolid solid] at spaced
      rcases spaced with last | ⟨apart, spaced⟩
      · exact absurd last.symm inner.1
      · cases us with
        | nil => exact List.IsChain.singleton a
        | cons b us =>
          refine List.isChain_cons_cons.mpr ⟨?_, ih inner.2 spaced⟩
          by_cases solid' : b.isSolid = true
          · rwa [List.cons_append, place_of_isSolid solid'] at apart
          · rw [blank b solid', Bool.and_false]
    · rw [place_of_not_isSolid solid] at spaced
      cases us with
      | nil => exact List.IsChain.singleton a
      | cons b us =>
        refine List.isChain_cons_cons.mpr ⟨?_, ih inner.2 spaced⟩
        rw [blank a solid, Bool.false_and]

end Lexeme

namespace Line

open Token (listed)

variable {line : Line} {statements : List Statement}

/-- A line has no first unknown token exactly if it has no unknown token. -/
theorem firstUnknown?_eq_none_iff :
    line.firstUnknown? = none ↔ ∀ s, .unknown s ∉ line.tokens := by
  have placed : ∀ s, (∃ lexeme ∈ Lexeme.place 0 line.tokens, lexeme.token = .unknown s) ↔
      .unknown s ∈ line.tokens := by
    intro s
    rw [← List.mem_map, Lexeme.map_token_place, List.mem_filter]
    simp [Token.isSolid]
  rw [firstUnknown?_eq, List.findSome?_eq_none_iff]
  constructor
  · intro none s member
    obtain ⟨lexeme, among, same⟩ := (placed s).mpr member
    have refused := none lexeme among
    rw [Lexeme.unknown?, same] at refused
    cases refused
  · intro known lexeme among
    unfold Lexeme.unknown?
    split
    · next s same => exact absurd ((placed s).mp ⟨lexeme, among, same⟩) (known s)
    · rfl

/-- A line is accepted exactly if it has no unknown token and its solid tokens are read. -/
theorem statements_eq_ok_iff :
    line.statements = .ok statements ↔ (∀ s, .unknown s ∉ line.tokens) ∧
      ∃ code, Statement.readLine (Lexeme.place 0 line.tokens) = .ok code ∧
        code.toList = statements := by
  unfold Line.statements
  rw [← firstUnknown?_eq_none_iff, Statement.parse_eq, Statement.readTokens]
  cases line.firstUnknown? with
  | some unknown => simp
  | none => cases Statement.readLine (Lexeme.place 0 line.tokens) <;> simp

/-- The characters of a listed line: its number and a blank, if it has a number, and then its
tokens. -/
theorem toList_text (line : Line) :
    line.text.toList =
      (line.number.elim [] fun n => Nat.toDigits 10 n ++ [' ']) ++ listed line.tokens := by
  unfold text
  cases line.number with
  | none => simp [listed, List.flatMap_map]
  | some n => simp [listed, List.flatMap_map]

/-- The text of a listed line has no line end, and its number is taken off it. -/
theorem takeLineNumber_listed (number : Option LineNumber) {cs : List Char}
    (bound : ∀ n, number = some n → n ≤ Token.maxLineNumber)
    (unnumbered : number = none → Token.digitAhead (cs.dropWhile Token.isGap) = false)
    (closed : Token.Closed cs) :
    Token.takeLineNumber (Text.dropLineEnd
      ((number.elim [] fun n => Nat.toDigits 10 n ++ [' ']) ++ cs)) = (number, cs) := by
  cases number with
  | none =>
    rw [Option.elim_none, List.nil_append, closed.dropLineEnd,
      Token.takeLineNumber_of_not_digitAhead (unnumbered rfl)]
  | some n =>
    have ends : Token.Closed ([' '] ++ cs) := by
      by_cases empty : cs = []
      · subst empty
        exact Token.closed_singleton (c := ' ') (by decide)
      · exact closed.append empty
    rw [Option.elim_some, List.append_assoc, (ends.append (by simp)).dropLineEnd,
      List.singleton_append, Token.takeLineNumber_toDigits (bound n rfl)]

/-- A line that is accepted does not go on with a digit where its number would stand. -/
theorem digitAhead_of_readLine {cs : List Char} {ts us rest vs : List Token}
    {code : Array Statement} (lists : Token.Lists .statements cs ts us rest vs)
    (read : Statement.readLine (Lexeme.place 0 ts) = .ok code) :
    Token.digitAhead ((listed vs).dropWhile Token.isGap) = false := by
  rw [Bool.eq_false_iff]
  intro digit
  obtain ⟨s, tail, first⟩ := Token.scan_of_digitAhead digit
  rw [lists.rescans.echoes_and_scan.2] at first
  have shown : us.flatMap Token.parts ++ [.endOfLine] = Token.trimEnd vs ++ [.endOfLine] := by
    rw [lists.parts_eq]
  rw [lists.split] at read
  -- The number would be the first token that is read, and no statement starts with one.
  rcases first with rfl | ⟨w, rfl⟩
  · rw [Token.trimEnd_cons_of_stays rfl] at shown
    obtain ⟨-, us, rfl, -⟩ := Token.exists_of_parts shown (by simp) (by simp) (by simp)
    exact Statement.ne_number_of_readLine read
  · have number : Token.trimEnd (.number s :: tail) = .number s :: Token.trimEnd tail :=
      Token.trimEnd_cons_of_stays rfl
    rw [Token.trimEnd_cons_of_ne_nil (by simp [number]), number] at shown
    obtain ⟨-, us, rfl, later⟩ := Token.exists_of_parts shown (by simp) (by simp) (by simp)
    obtain ⟨-, us, rfl, -⟩ := Token.exists_of_parts later (by simp) (by simp) (by simp)
    exact Statement.ne_number_of_readLine read

/-- An accepted line, listed and entered again, has the same number and the same tokens, but for an
end of the line at which there is nothing to read. -/
theorem ofText_text {text : String} (accepted : (ofText text).statements = .ok statements) :
    ∃ us rest, (ofText text).tokens = us ++ (rest ++ [.endOfLine]) ∧ Token.Idle rest ∧
      ofText (ofText text).text = ⟨(ofText text).number, us ++ [.endOfLine]⟩ := by
  obtain ⟨known, code, read, -⟩ := statements_eq_ok_iff.mp accepted
  obtain ⟨⟨number, body⟩, taken⟩ :
      ∃ taken, Token.takeLineNumber (Text.dropLineEnd text.toList) = taken := ⟨_, rfl⟩
  have line : ofText text = ⟨number, Token.joinSigns (Token.joinGo
      (Token.trimEnd (Token.scan .statements body) ++ [.endOfLine]))⟩ := by
    simp only [ofText, Token.scanLine_eq, taken]
  rw [line] at known read ⊢
  have joins := Token.joins_scan .statements body
  obtain ⟨us, rest, vs, lists⟩ := Token.listable_of_joins joins known .statements body rfl
  refine ⟨us, rest, lists.split, lists.idle, ?_⟩
  have apart : Token.Apart us := by
    have spaced := Statement.spaced_of_readLine read
    dsimp only at spaced
    rw [lists.split] at spaced
    exact Lexeme.apart_of_spaced lists.inner spaced
  have again : Token.joinSigns (Token.joinGo (Token.trimEnd vs ++ [.endOfLine])) =
      us ++ [.endOfLine] := by
    rw [lists.split] at joins
    rw [← lists.parts_eq]
    exact (joins.again apart).eq
  have shown : ∀ ts, ts = us ++ (rest ++ [.endOfLine]) → listed ts = listed vs := by
    rintro _ rfl
    rw [lists.listed_eq, ← List.append_assoc, Token.listed_append]
    exact List.append_nil _
  have renumbered := takeLineNumber_listed number
    (fun n same => Token.le_of_takeLineNumber (by rw [taken, same]))
    (fun _ => digitAhead_of_readLine lists read) lists.rescans.closed
  simp only [ofText, Token.scanLine_eq, toList_text, shown _ lists.split, renumbered,
    lists.rescans.echoes_and_scan.2, again]

/-- Listing an accepted line and entering what is listed keeps its number and its statements, with
their columns. -/
theorem listing_round_trip (text : String) (statements : List Statement)
    (accepted : (ofText text).statements = .ok statements) :
    (ofText (ofText text).text).number = (ofText text).number ∧
      (ofText (ofText text).text).statements = .ok statements := by
  obtain ⟨us, rest, split, idle, again⟩ := ofText_text accepted
  obtain ⟨known, code, read, rfl⟩ := statements_eq_ok_iff.mp accepted
  rw [again, statements_eq_ok_iff]
  rw [split] at known read
  refine ⟨rfl, fun s member => known s ?_, code, ?_, rfl⟩
  · rcases List.mem_append.mp member with before | last
    · exact List.mem_append_left _ before
    · cases List.mem_singleton.mp last
  · exact Statement.readLine_of_alike read (Lexeme.alike_place us idle 0)

/-- A line with a joined word, a relation spelled the other way and an open string is listed in full
and accepted again. -/
theorem listing_round_trip_if :
    (ofText "10 if a=<b then\tgo  to 20 : print \"hi").text =
        "10 IF A<=B THEN GO TO 20 : PRINT \"hi\"" ∧
      (ofText "10 IF A<=B THEN GO TO 20 : PRINT \"hi\"").number = some 10 ∧
      (ofText "10 IF A<=B THEN GO TO 20 : PRINT \"hi\"").statements =
        .ok [.branch ⟨0, 2⟩ (.binary ⟨4, 6⟩ .lessEqual (.scalar ⟨3, 4⟩ (.plain "A"))
            (.scalar ⟨6, 7⟩ (.plain "B"))) 3,
          .run (.goto ⟨13, 18⟩ 20), .run (.print ⟨24, 29⟩ [.value (.string ⟨30, 34⟩ "hi")])] := by
  have shown : (ofText "10 if a=<b then\tgo  to 20 : print \"hi").text =
      "10 IF A<=B THEN GO TO 20 : PRINT \"hi\"" := by
    decide +kernel
  have accepted : (ofText "10 if a=<b then\tgo  to 20 : print \"hi").statements =
      .ok [.branch ⟨0, 2⟩ (.binary ⟨4, 6⟩ .lessEqual (.scalar ⟨3, 4⟩ (.plain "A"))
          (.scalar ⟨6, 7⟩ (.plain "B"))) 3,
        .run (.goto ⟨13, 18⟩ 20), .run (.print ⟨24, 29⟩ [.value (.string ⟨30, 34⟩ "hi")])] := by
    have read : ofText "10 if a=<b then\tgo  to 20 : print \"hi" =
        ⟨some 10, [.word .IF, .blank 1, .name (.plain "A"), .operator (.binary .lessEqual),
          .name (.plain "B"), .blank 1, .word .THEN, .blank 1, .word .GO_TO, .blank 1, .number "20",
          .blank 1, .colon, .blank 1, .word .PRINT, .blank 1, .string "hi", .endOfLine]⟩ := by
      decide +kernel
    rw [read]
    exact statements_eq_ok_iff.mpr ⟨by simp, _, rfl, rfl⟩
  have again := listing_round_trip _ _ accepted
  rw [shown] at again
  exact ⟨shown, again.1.trans (by decide +kernel), again.2⟩

end Line

end NumberedBasic
