import NumberedBasic.Text.Blank
import NumberedBasic.Token

/-!
# Scanning a line into tokens

`Token.scanLine` takes the number off the front of a line and cuts the rest into tokens. Keywords
are recognised anywhere, as soon as the letters read so far spell one. After `REM` the rest of the
line is one remark, and after `DATA` the items up to the next colon are taken as they stand.
-/

set_option autoImplicit false

namespace NumberedBasic.Token

/-- The blanks that separate tokens. -/
def isGap (c : Char) : Bool :=
  c == ' ' || c == '\t'

/-- The exponent at the front of a text, with its mark in upper case, and what follows it. A mark
that no digit follows, after at most one sign, is no exponent. -/
def takeExponent (cs : List Char) : List Char × List Char :=
  match cs with
  | e :: c :: rest =>
    if e == 'E' || e == 'e' then
      if c.isDigit then
        ('E' :: (c :: rest).takeWhile Char.isDigit, (c :: rest).dropWhile Char.isDigit)
      else if (c == '+' || c == '-') && (rest.head?.any Char.isDigit) then
        ('E' :: c :: rest.takeWhile Char.isDigit, rest.dropWhile Char.isDigit)
      else ([], cs)
    else ([], cs)
  | _ => ([], cs)

/-- The number at the front of a text and what follows it. It holds at most one point, and
`pointed` says whether that has been read. -/
def takeNumber (pointed : Bool) : List Char → List Char × List Char
  | [] => ([], [])
  | c :: cs =>
    if c.isDigit then
      let (ds, rest) := takeNumber pointed cs
      (c :: ds, rest)
    else if c == '.' && !pointed then
      let (ds, rest) := takeNumber true cs
      (c :: ds, rest)
    else takeExponent (c :: cs)

/-- The string after an opening quote and what follows its closing quote. Two quotes stand for one,
and the end of the line closes a string too. -/
def takeString : List Char → List Char × List Char
  | [] => ([], [])
  | '"' :: '"' :: cs =>
    let (s, rest) := takeString cs
    ('"' :: s, rest)
  | c :: cs =>
    if c == '"' then ([], cs)
    else
      let (s, rest) := takeString cs
      (c :: s, rest)

/-- Reads on, after the characters `seen`, through a run that starts with a letter. It ends as soon
as it spells a keyword, after a `$`, before a letter that follows a digit, and before any other
character. -/
def takeName (seen : List Char) (digit : Bool) (c : Char) (cs : List Char) : Token × List Char :=
  let seen := seen ++ [c.toUpper]
  let digit := digit || c.isDigit
  match ofSpelling? seen with
  | some t => (t, cs)
  | none =>
    if c == '$' then (.name (.text (String.ofList seen)), cs)
    else
      match cs with
      | [] => (.name (.plain (String.ofList seen)), [])
      | d :: rest =>
        if (d.isAlpha && !digit) || d.isDigit || d == '$' then takeName seen digit d rest
        else (.name (.plain (String.ofList seen)), d :: rest)

/-- Reads on, after the characters `seen`, through a run of other characters. It ends as soon as it
spells a token, and before a letter, a digit, a gap or a quote. -/
def takeSymbol (seen : List Char) (c : Char) (cs : List Char) : Token × List Char :=
  let seen := seen ++ [c]
  match ofSpelling? seen with
  | some t => (t, cs)
  | none =>
    match cs with
    | [] => (.unknown (String.ofList seen), [])
    | d :: rest =>
      if d.isAlpha || d.isDigit || isGap d || d == '"' then
        (.unknown (String.ofList seen), d :: rest)
      else takeSymbol seen d rest

/-- The characters a data item may hold after its first one. -/
def isItem (c : Char) : Bool :=
  c != ',' && c != ':'

/-- What the characters that follow are taken for. -/
inductive Mode where
  | statements
  | remark
  | data
  deriving DecidableEq, Repr

/-- How the characters after a token are taken. -/
def Mode.after (mode : Mode) : Token → Mode
  | .word .REM | .word .APOSTROPHE => .remark
  | .word .DATA => .data
  | _ => mode

/-- The token at the front of the text `c :: cs`, how to go on, and what follows it. -/
def next (mode : Mode) (c : Char) (cs : List Char) : Token × Mode × List Char :=
  if mode = .remark then (.remark (String.ofList (c :: cs)), .remark, [])
  else if isGap c then
    (.blank ((c :: cs).takeWhile isGap).length, mode, (c :: cs).dropWhile isGap)
  else if c == '"' then
    let (s, rest) := takeString cs
    (.string (String.ofList s), mode, rest)
  else if mode = .data then
    if c == ',' then (.comma, .data, cs)
    else if c == ':' then (.colon, .statements, cs)
    else
      (.datum (String.ofList ((c :: cs).takeWhile isItem)), .data, (c :: cs).dropWhile isItem)
  else if c.isDigit || c == '.' then
    let (s, rest) := takeNumber false (c :: cs)
    (.number (String.ofList s), mode, rest)
  else
    let (t, rest) := if c.isAlpha then takeName [] false c cs else takeSymbol [] c cs
    (t, mode.after t, rest)

/-- Dropping what stands in front does not lengthen a list. -/
theorem length_dropWhile_le {α : Type} (p : α → Bool) (xs : List α) :
    (xs.dropWhile p).length ≤ xs.length :=
  (List.dropWhile_sublist p).length_le

/-- What is left after an exponent is no longer than what it was read from. -/
theorem length_takeExponent_le (cs : List Char) : (takeExponent cs).2.length ≤ cs.length := by
  unfold takeExponent
  split
  · next e c rest =>
    have h₁ := length_dropWhile_le Char.isDigit (c :: rest)
    have h₂ := length_dropWhile_le Char.isDigit rest
    simp only [List.length_cons] at h₁ ⊢
    split <;> (try split) <;> (try split) <;> simp only [List.length_cons] <;> omega
  · simp

/-- What is left after a number is no longer than what it was read from. -/
theorem length_takeNumber_le (pointed : Bool) (cs : List Char) :
    (takeNumber pointed cs).2.length ≤ cs.length := by
  induction cs generalizing pointed with
  | nil => simp [takeNumber]
  | cons c cs ih =>
    unfold takeNumber
    split
    · exact Nat.le_succ_of_le (ih pointed)
    · split
      · exact Nat.le_succ_of_le (ih true)
      · exact length_takeExponent_le (c :: cs)

/-- What is left after a string is no longer than what it was read from. -/
theorem length_takeString_le (cs : List Char) : (takeString cs).2.length ≤ cs.length := by
  fun_induction takeString cs with
  | case1 => simp
  | case2 cs s rest h ih => simp [h] at ih ⊢; omega
  | case3 c cs _ h => simp
  | case4 c cs _ h s rest hs ih => simp [hs] at ih ⊢; omega

/-- What is left after a name is no longer than what stood after its first letter. -/
theorem length_takeName_le (seen : List Char) (digit : Bool) (c : Char) (cs : List Char) :
    (takeName seen digit c cs).2.length ≤ cs.length := by
  induction cs generalizing seen digit c with
  | nil => unfold takeName; dsimp only; repeat (first | split | simp)
  | cons d rest ih =>
    unfold takeName
    dsimp only
    split
    · simp
    · split
      · simp
      · split
        · exact Nat.le_succ_of_le (ih _ _ _)
        · simp

/-- What is left after a symbol is no longer than what stood after its first character. -/
theorem length_takeSymbol_le (seen : List Char) (c : Char) (cs : List Char) :
    (takeSymbol seen c cs).2.length ≤ cs.length := by
  induction cs generalizing seen c with
  | nil => unfold takeSymbol; dsimp only; split <;> simp
  | cons d rest ih =>
    unfold takeSymbol
    dsimp only
    split
    · simp
    · split
      · simp
      · exact Nat.le_succ_of_le (ih _ _)

/-- Dropping characters of which the first is one removes at least that one. -/
theorem length_dropWhile_le_of_head {p : Char → Bool} {c : Char} (h : p c = true)
    (cs : List Char) : ((c :: cs).dropWhile p).length ≤ cs.length := by
  rw [List.dropWhile_cons_of_pos h]
  exact length_dropWhile_le p cs

/-- A token takes at least one character, so scanning goes forward. -/
theorem length_next_le (mode : Mode) (c : Char) (cs : List Char) :
    (next mode c cs).2.2.length ≤ cs.length := by
  unfold next
  split
  · simp
  · split
    · next h => exact length_dropWhile_le_of_head h cs
    · split
      · exact length_takeString_le cs
      · split
        · split
          · simp
          · split
            · simp
            · next hc hd =>
              exact length_dropWhile_le_of_head (by simp_all [isItem]) cs
        · split
          · next h =>
            simp only
            unfold takeNumber
            split
            · exact length_takeNumber_le false cs
            · next hd =>
              have hdot : (c == '.' && !false) = true := by simp_all
              rw [if_pos hdot]
              exact length_takeNumber_le true cs
          · dsimp only
            split
            · exact length_takeName_le [] false c cs
            · exact length_takeSymbol_le [] c cs

/-- The tokens of a text, in order. -/
def scan (mode : Mode) : List Char → List Token
  | [] => []
  | c :: cs =>
    let found := next mode c cs
    found.1 :: scan found.2.1 found.2.2
termination_by cs => cs.length
decreasing_by
  have := length_next_le mode c cs
  simp only [List.length_cons]
  omega

/-- The tokens without blanks at their end, be it a blank token or the blanks of a last remark or
data item. -/
def trimEnd (ts : List Token) : List Token :=
  let ts := match ts.getLast? with
    | some (.blank _) => ts.dropLast
    | _ => ts
  match ts.getLast? with
  | some (.remark s) => ts.dropLast ++ [.remark (String.ofList (Text.trimEnd s.toList))]
  | some (.datum s) => ts.dropLast ++ [.datum (String.ofList (Text.trimEnd s.toList))]
  | _ => ts

/-- The keyword that `GO`, a blank and a second part spell together. -/
def goWord? : Token → Token → Token → Option Token
  | .name (.plain go), .blank _, .word .TO => if go = "GO" then some (.word .GO_TO) else none
  | .name (.plain go), .blank _, .name (.plain sub) =>
    if go = "GO" ∧ sub = "SUB" then some (.word .GO_SUB) else none
  | _, _, _ => none

/-- Puts one token in the place of `width` tokens, from `index` on. -/
def splice (width index : Nat) (t : Token) (ts : List Token) : List Token :=
  ts.take index ++ t :: ts.drop (index + width)

/-- Puts tokens in the places that were found for them. The last place comes first, so that those
before it are still where they were found. -/
def spliceAll (width : Nat) (found : List (Nat × Token)) (ts : List Token) : List Token :=
  found.foldr (fun place ts => splice width place.1 place.2 ts) ts

/-- The places where three tokens spell a keyword, with that keyword. -/
def findGo (ts : List Token) : List (Nat × Token) :=
  (ts.zip (ts.tail.zip ts.tail.tail)).zipIdx.filterMap fun ((a, b, c), index) =>
    (goWord? a b c).map fun t => (index, t)

/-- Makes `GO TO` and `GO SUB`, written with blanks between the parts, into one keyword each. -/
def mergeGo (ts : List Token) : List Token :=
  spliceAll 3 (findGo ts) ts

/-- The relation that two signs spell together, in either order. -/
def relation? : Token → Token → Option Token
  | .operator (.binary a), .operator (.binary b) =>
    match a, b with
    | .less, .equal | .equal, .less => some (.operator (.binary .lessEqual))
    | .greater, .equal | .equal, .greater => some (.operator (.binary .greaterEqual))
    | .less, .greater | .greater, .less => some (.operator (.binary .notEqual))
    | _, _ => none
  | _, _ => none

/-- The places, among pairs of tokens with their indices, where two signs spell a relation, with
that relation. The pair after such a place is passed over, because its first sign has been used. -/
def signsAmong : List ((Token × Token) × Nat) → List (Nat × Token)
  | [] => []
  | ((a, b), index) :: pairs =>
    match relation? a b, pairs with
    | some t, _ :: pairs => (index, t) :: signsAmong pairs
    | some t, [] => [(index, t)]
    | none, pairs => signsAmong pairs

/-- The places where two signs spell a relation, with that relation. -/
def findSigns (ts : List Token) : List (Nat × Token) :=
  signsAmong (ts.zip ts.tail).zipIdx

/-- Makes two signs that spell a relation together into that relation. -/
def mergeSigns (ts : List Token) : List Token :=
  spliceAll 2 (findSigns ts) ts

/-- The number a line starts with, after gaps, and the rest of the line. One blank after the number
belongs to it. A line without a number, or with one that is too large, is left as it is. -/
def takeLineNumber (cs : List Char) : Option LineNumber × List Char :=
  let body := cs.dropWhile isGap
  match lineNumberOfDigits? (body.takeWhile Char.isDigit) with
  | none => (none, cs)
  | some n =>
    match body.dropWhile Char.isDigit with
    | ' ' :: rest => (some n, rest)
    | rest => (some n, rest)

/-- The number of a line, if it has one, and its tokens. -/
def scanLine (cs : List Char) : Option LineNumber × List Token :=
  let (line, rest) := takeLineNumber cs
  (line, mergeSigns (mergeGo (trimEnd (scan .statements rest) ++ [.endOfLine])))

end NumberedBasic.Token
