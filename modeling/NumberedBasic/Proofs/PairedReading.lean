import NumberedBasic.Proofs.Precedence

/-!
# Two lines read side by side

Readers go by the tokens of a line. Where the tokens stand, and which spelling of a keyword was
entered, shows in the columns of what is read and nowhere else. `Agree` says this of the readings of
two lines with the same tokens: either both are refused, for the same reason and at a token of the
line or at its end, or both succeed and satisfy a condition on the two results and on the place
where the rest of the first line starts. The condition is mostly `Paired`: the results are the same
without their columns, and the columns of the first one belong to tokens of its line, each to the
right one and in the order of the line (`Marked`). Here this is shown of the readers of expressions.
-/

set_option autoImplicit false

namespace NumberedBasic

/-! ## Spellings -/

/-- The keyword in the first of its spellings. -/
def Word.usual : Word → Word
  | .GO_TO => .GOTO
  | .GO_SUB => .GOSUB
  | .QUESTION => .PRINT
  | .APOSTROPHE => .REM
  | word => word

/-- Two spellings of one keyword. -/
inductive Word.Respelled : Word → Word → Prop
  | goto : Respelled .GOTO .GO_TO
  | goTo : Respelled .GO_TO .GOTO
  | gosub : Respelled .GOSUB .GO_SUB
  | goSub : Respelled .GO_SUB .GOSUB
  | print : Respelled .PRINT .QUESTION
  | question : Respelled .QUESTION .PRINT
  | remark : Respelled .REM .APOSTROPHE
  | apostrophe : Respelled .APOSTROPHE .REM

namespace Word

/-- Two spellings of one keyword are so in either order. -/
theorem Respelled.symm {v w : Word} (other : Respelled v w) : Respelled w v := by
  cases other <;> constructor

/-- A keyword is in its first spelling or in the other one. -/
theorem eq_usual_or_respelled (w : Word) : w = w.usual ∨ Respelled w w.usual := by
  cases w with
  | GO_TO => exact .inr .goTo
  | GO_SUB => exact .inr .goSub
  | QUESTION => exact .inr .question
  | APOSTROPHE => exact .inr .apostrophe
  | _ => exact .inl rfl

/-- Keywords with the same first spelling are the same, or two spellings of one. -/
theorem eq_or_respelled {v w : Word} (same : v.usual = w.usual) : v = w ∨ Respelled v w := by
  have first := eq_usual_or_respelled v
  have second := eq_usual_or_respelled w
  rw [same] at first
  generalize w.usual = x at first second
  obtain rfl | first := first
  · exact second.imp Eq.symm Respelled.symm
  · obtain rfl | second := second
    · exact .inr first
    · cases first <;> cases second <;> exact .inl rfl

end Word

namespace Token

/-- The token in the first of its spellings. -/
def usual : Token → Token
  | .word w => .word w.usual
  | t => t

/-- A token with one spelling only. -/
def alone : Token → Bool
  | .word .GOTO | .word .GO_TO | .word .GOSUB | .word .GO_SUB => false
  | .word .PRINT | .word .QUESTION | .word .REM | .word .APOSTROPHE => false
  | _ => true

/-- A keyword that has another spelling is not alone. -/
theorem alone_of_respelled {v w : Word} (other : v.Respelled w) : (word v).alone = false := by
  cases other <;> rfl

end Token

namespace Lexeme

/-- Lines with the same tokens, in whichever spelling and in whichever columns. -/
inductive SameTokens : List Lexeme → List Lexeme → Prop
  | nil : SameTokens [] []
  | token (t : Token) (c d : Span) {ts us : List Lexeme} (rest : SameTokens ts us) :
      SameTokens (⟨t, c⟩ :: ts) (⟨t, d⟩ :: us)
  | word {v w : Word} (other : v.Respelled w) (c d : Span) {ts us : List Lexeme}
      (rest : SameTokens ts us) : SameTokens (⟨.word v, c⟩ :: ts) (⟨.word w, d⟩ :: us)

namespace SameTokens

variable {ts us : List Lexeme} {token : Token}

/-- A line has the same tokens as itself. -/
theorem refl (ts : List Lexeme) : SameTokens ts ts := by
  induction ts with
  | nil => exact .nil
  | cons t ts ih => exact .token t.token t.column t.column ih

/-- Lines with the same tokens have equally many. -/
theorem length_eq (same : SameTokens ts us) : ts.length = us.length := by
  induction same with
  | nil => rfl
  | token t c d _ ih => exact congrArg (· + 1) ih
  | word other c d _ ih => exact congrArg (· + 1) ih

/-- A token with one spelling is next in both lines or in neither. -/
theorem either (same : SameTokens ts us) (token : Token) (alone : token.alone = true) :
    (∃ c d rest rest', ts = ⟨token, c⟩ :: rest ∧ us = ⟨token, d⟩ :: rest' ∧
      SameTokens rest rest') ∨
      (∀ c rest, ts ≠ ⟨token, c⟩ :: rest) ∧ ∀ d rest, us ≠ ⟨token, d⟩ :: rest := by
  cases same with
  | nil => exact .inr ⟨nofun, nofun⟩
  | token t c d tails =>
    by_cases hit : t = token
    · subst hit
      exact .inl ⟨c, d, _, _, rfl, rfl, tails⟩
    · exact .inr ⟨fun _ _ h => hit (by cases h; rfl), fun _ _ h => hit (by cases h; rfl)⟩
  | word other c d tails =>
    refine .inr ⟨fun _ _ h => ?_, fun _ _ h => ?_⟩
    · cases h
      cases alone.symm.trans (Token.alone_of_respelled other)
    · cases h
      cases alone.symm.trans (Token.alone_of_respelled other.symm)

/-- A statement ends in both of two lines with the same tokens, or in neither. -/
theorem atEnd_eq (same : SameTokens ts us) : atEnd ts = atEnd us := by
  cases same with
  | nil => rfl
  | token t c d _ =>
    cases t with
    | word w => cases w <;> rfl
    | _ => rfl
  | word other => cases other <;> rfl

end SameTokens

end Lexeme

/-! ## Columns -/

/-- A column that something was read with, and the tokens that it may belong to: `Fits` is asked
about the token before, if there is one, and about the token itself. Blanks do not count. -/
structure Mark where
  column : Span
  Fits : Option Token → Token → Prop

namespace Mark

/-- The column of a given token. -/
def token (column : Span) (token : Token) : Mark :=
  ⟨column, fun _ t => t = token⟩

/-- The column of a keyword in either spelling. -/
def keyword (column : Span) (word : Word) : Mark :=
  ⟨column, fun _ t => t.usual = .word word⟩

/-- The column of a number literal with a given value. -/
def number (column : Span) (value : Float) : Mark :=
  ⟨column, fun _ t => ∃ s, t = .number s ∧ Numeral.read? s.toList = some value⟩

/-- The token before the one at `i`. -/
def before (source : List Lexeme) : Nat → Option Token
  | 0 => none
  | i + 1 => source[i]?.map Lexeme.token

/-- A mark belongs to the token at `i`. -/
def Points (source : List Lexeme) (mark : Mark) (i : Nat) : Prop :=
  ∃ t, source[i]? = some t ∧ mark.column = t.column ∧ mark.Fits (before source i) t.token

end Mark

/-- Marks belong to tokens of a line, each to a later one than the mark before it, from the one at
`n` up to the one before `k`. -/
inductive Marked (source : List Lexeme) : Nat → List Mark → Nat → Prop
  | nil {n k : Nat} (le : n ≤ k) : Marked source n [] k
  | cons {n i k : Nat} {mark : Mark} {marks : List Mark} (le : n ≤ i)
      (points : mark.Points source i) (rest : Marked source (i + 1) marks k) :
      Marked source n (mark :: marks) k

namespace Marked

variable {source : List Lexeme} {n m k : Nat} {mark : Mark} {marks others : List Mark}

/-- The range that marks are found in does not end before it starts. -/
theorem le (marked : Marked source n marks k) : n ≤ k := by
  induction marked with
  | nil le => exact le
  | cons le _ _ ih => omega

/-- The range that marks are found in may start earlier. -/
theorem start_le (marked : Marked source m marks k) (le : n ≤ m) : Marked source n marks k := by
  cases marked with
  | nil le' => exact .nil (Nat.le_trans le le')
  | cons le' points rest => exact .cons (Nat.le_trans le le') points rest

/-- Marks of two ranges, one after the other, are marks of both. -/
theorem append (first : Marked source n marks m) (second : Marked source m others k) :
    Marked source n (marks ++ others) k := by
  induction first with
  | nil le => exact second.start_le le
  | cons le points _ ih => exact .cons le points (ih second)

/-- The range that marks are found in may end later. -/
theorem stop_le (marked : Marked source n marks m) (le : m ≤ k) : Marked source n marks k := by
  simpa using marked.append (.nil le)

/-- One mark, and then others. -/
theorem head (points : mark.Points source n) (rest : Marked source m marks k) (le : n < m) :
    Marked source n (mark :: marks) k :=
  .cons (Nat.le_refl n) points (rest.start_le le)

/-- One mark that belongs to a token is found in every range that starts at it. -/
theorem single (points : mark.Points source n) (lt : n < k) : Marked source n [mark] k :=
  .cons (Nat.le_refl n) points (.nil lt)

end Marked

namespace Expr

mutual

/-- The columns of an expression in the order of its text. -/
def marks : Expr → List Mark
  | .number c x => [.number c x]
  | .string c s => [.token c (.string s)]
  | .scalar c i => [.token c (.name i)]
  | .call c i es => .token c (.name i) :: marksAll es
  | .user c _ es => .token c (.word .FN) :: marksAll es
  | .negate c e => .token c (.operator (.binary .subtract)) :: marks e
  | .not c e => .token c (.operator .not) :: marks e
  | .binary c op l r => marks l ++ .token c (.operator (.binary op)) :: marks r

/-- The columns of some expressions in the order of their text. -/
def marksAll : List Expr → List Mark
  | [] => []
  | e :: es => marks e ++ marksAll es

end

end Expr

/-- Two results are the same without their columns, and those of the first one belong to tokens of a
line between `n` and `k`. -/
def Paired {α : Type} (bare : α → α) (marks : α → List Mark) (source : List Lexeme) (n : Nat)
    (a b : α) (k : Nat) : Prop :=
  bare a = bare b ∧ Marked source n (marks a) k

/-! ## Readings that agree -/

open Lexeme (SameTokens refuse exhausted expect functionName)

/-- A fault that names no place. -/
def Fault.Unlocated (fault : Fault) : Prop :=
  fault.line = none ∧ fault.column = Span.none

/-- The results of two readers are both refusals, with the same fault, which names no place, and the
first one at a token of `source` or at its end, or both are readings, whose values satisfy `Good`
together with the place in `source` where the first rest starts, and whose rests have the same
tokens. -/
inductive Agree {α : Type} (source : List Lexeme) (Good : α → α → Nat → Prop) :
    Except Refusal (WithRest α) → Except Refusal (WithRest α) → Prop
  | ok {a b : α} {k : Nat} {ts us : List Lexeme} (good : Good a b k) (there : source.drop k = ts)
      (same : SameTokens ts us) : Agree source Good (.ok (a, ts)) (.ok (b, us))
  | error {e f : Refusal} (reason : e.raised = f.raised) (unlocated : e.raised.Unlocated) (k : Nat)
      (place : e.column = source[k]?.map Lexeme.column) : Agree source Good (.error e) (.error f)

/-- The first of the lexemes from a place on stands at that place. -/
theorem getElem?_of_drop {source ts : List Lexeme} {n : Nat} {t : Lexeme}
    (here : source.drop n = t :: ts) : source[n]? = some t := by
  rw [← List.head?_drop, here, List.head?_cons]

/-- The lexemes from a place on, but for the first one, are those from the next place on. -/
theorem drop_succ_of_drop {source ts : List Lexeme} {n : Nat} {t : Lexeme}
    (here : source.drop n = t :: ts) : source.drop (n + 1) = ts := by
  rw [← List.tail_drop, here, List.tail_cons]

/-- What was just read is marked by its own column. -/
theorem Mark.points_of_drop {source ts : List Lexeme} {n : Nat} {t : Token} {mark : Mark}
    (here : source.drop n = ⟨t, mark.column⟩ :: ts) (fits : ∀ before, mark.Fits before t) :
    mark.Points source n :=
  ⟨_, getElem?_of_drop here, rfl, fits _⟩

namespace Agree

variable {α β : Type} {source ts us : List Lexeme} {n : Nat} {Good : α → α → Nat → Prop}
  {Good' : β → β → Nat → Prop}

/-- Readings that agree on more agree on less. -/
theorem imp {Good' : α → α → Nat → Prop} {x y : Except Refusal (WithRest α)}
    (agree : Agree source Good x y) (weaker : ∀ a b k, Good a b k → Good' a b k) :
    Agree source Good' x y := by
  cases agree with
  | ok good there same => exact .ok (weaker _ _ _ good) there same
  | error reason unlocated k place => exact .error reason unlocated k place

/-- Readings in two parts agree if the first parts do and the second ones do wherever the first ones
agree. -/
theorem bind {x y : Except Refusal (WithRest α)}
    {q q' : WithRest α → Except Refusal (WithRest β)} (first : Agree source Good x y)
    (next : ∀ a b k rest rest', Good a b k → source.drop k = rest → SameTokens rest rest' →
      Agree source Good' (q (a, rest)) (q' (b, rest'))) :
    Agree source Good' (x >>= q) (y >>= q') := by
  cases first with
  | ok good there same => exact next _ _ _ _ _ good there same
  | error reason unlocated k place => exact .error reason unlocated k place

/-- Readings that agree still do when the same is done with their values. -/
theorem map {x y : Except Refusal (WithRest α)} (agree : Agree source Good x y) (f g : α → β)
    (next : ∀ a b k, Good a b k → Good' (f a) (g b) k) :
    Agree source Good' (x >>= fun r => pure (f r.1, r.2)) (y >>= fun r => pure (g r.1, r.2)) :=
  agree.bind fun _ _ _ _ _ good there same => .ok (next _ _ _ good) there same

/-- Refusals with the same detail agree. -/
theorem refuse (here : source.drop n = ts) (us : List Lexeme) (detail : String) :
    Agree source Good (Lexeme.refuse ts detail) (Lexeme.refuse us detail) := by
  refine .error rfl ⟨rfl, rfl⟩ n ?_
  rw [← List.head?_drop, here]

/-- Readings that are given up for want of depth agree. -/
theorem exhausted (here : source.drop n = ts) (us : List Lexeme) :
    Agree source Good (Lexeme.exhausted ts) (Lexeme.exhausted us) := by
  refine .error rfl ⟨rfl, rfl⟩ n ?_
  rw [← List.head?_drop, here]

/-- Readings that expect a token of one spelling agree if they do behind it. -/
theorem expect {token : Token} {detail : String} (alone : token.alone = true)
    {q q' : List Lexeme → Except Refusal (WithRest α)} (here : source.drop n = ts)
    (same : SameTokens ts us)
    (next : ∀ rest rest', source.drop (n + 1) = rest → SameTokens rest rest' →
      Agree source Good (q rest) (q' rest')) :
    Agree source Good (Lexeme.expect token detail ts >>= q)
      (Lexeme.expect token detail us >>= q') := by
  rcases same.either token alone with ⟨c, d, rest, rest', rfl, rfl, tails⟩ | ⟨missed, missed'⟩
  · have taken (column : Span) (vs : List Lexeme) :
        Lexeme.expect token detail (⟨token, column⟩ :: vs) = .ok vs := if_pos rfl
    rw [bind_of_eq_ok (taken c rest), bind_of_eq_ok (taken d rest')]
    exact next rest rest' (drop_succ_of_drop here) tails
  · have refused {vs : List Lexeme} (missed : ∀ c rest, vs ≠ ⟨token, c⟩ :: rest) :
        Lexeme.expect token detail vs = Lexeme.refuse vs detail := by
      unfold Lexeme.expect
      split
      next t rest =>
        rw [if_neg]
        rintro rfl
        exact missed t.column rest rfl
      next => rfl
    rw [refused missed, refused missed']
    exact .refuse here us detail

end Agree

/-- The fault of a token that is no line number names no place. -/
theorem Token.unlocated_of_lineNumber {t : Token} {fault : Fault}
    (refused : t.lineNumber = .error fault) : fault.Unlocated := by
  unfold lineNumber at refused
  split at refused
  · split at refused
    · split at refused <;> cases refused
      exact ⟨rfl, rfl⟩
    · cases refused
      exact ⟨rfl, rfl⟩
  · cases refused
    exact ⟨rfl, rfl⟩

namespace Lexeme

variable {source ts us : List Lexeme} {n : Nat}

/-- Names are read alike, from the first token. -/
theorem agree_name (here : source.drop n = ts) (same : SameTokens ts us) :
    Agree source (fun a b k => a.2 = b.2 ∧ (Mark.token a.1 (.name a.2)).Points source n ∧ k = n + 1)
      (name ts) (name us) := by
  cases same with
  | nil => exact .refuse here _ _
  | token t c d tails =>
    cases t with
    | name i =>
      exact .ok ⟨rfl, Mark.points_of_drop here fun _ => rfl, rfl⟩ (drop_succ_of_drop here) tails
    | _ => exact .refuse here _ _
  | word => exact .refuse here _ _

/-- Line numbers are read alike, from the first token. -/
theorem agree_lineNumber (here : source.drop n = ts) (same : SameTokens ts us) :
    Agree source (fun a b k => a = b ∧ k = n + 1 ∧
      ∃ t, source[n]? = some t ∧ t.token.lineNumber = .ok a) (lineNumber ts) (lineNumber us) := by
  cases same with
  | nil => exact .refuse here _ _
  | token t c d tails =>
    unfold lineNumber
    dsimp only
    cases number : t.lineNumber with
    | ok line =>
      exact .ok ⟨rfl, rfl, _, getElem?_of_drop here, number⟩ (drop_succ_of_drop here) tails
    | error fault =>
      have unlocated := Token.unlocated_of_lineNumber number
      exact .error rfl unlocated n (by rw [getElem?_of_drop here, Option.map_some])
  | word other c d tails =>
    exact .error rfl ⟨rfl, rfl⟩ n (by rw [getElem?_of_drop here, Option.map_some])

/-- The name after `FN` is read alike, be it one token or part of one. -/
theorem exists_functionName (here : source.drop n = ts) (same : SameTokens ts us) :
    ∃ i k rest rest', functionName ts = (i, rest) ∧ functionName us = (i, rest') ∧
      n ≤ k ∧ source.drop k = rest ∧ SameTokens rest rest' := by
  cases same with
  | nil => exact ⟨_, n, _, _, rfl, rfl, Nat.le_refl n, here, .nil⟩
  | token t c d tails =>
    cases t with
    | name i => exact ⟨_, n + 1, _, _, rfl, rfl, Nat.le_succ n, drop_succ_of_drop here, tails⟩
    | _ => exact ⟨_, n, _, _, rfl, rfl, Nat.le_refl n, here, .token _ c d tails⟩
  | word other c d tails =>
    exact ⟨_, n, _, _, rfl, rfl, Nat.le_refl n, here, .word other c d tails⟩

end Lexeme

/-! ## Expressions -/

namespace Expr

/-- A function without arguments. -/
theorem operand_user_of_unopened {depth : Nat} {c : Span} {i : Ident} {ts rest : List Lexeme}
    (named : functionName ts = (i, rest)) (unopened : Unopened rest) :
    operand (depth + 1) (⟨.word .FN, c⟩ :: ts) = .ok (.user c i [], rest) := by
  rw [operand, named]
  dsimp only
  split
  next => exact absurd rfl (unopened _ _)
  next => rfl

section Step

variable {source : List Lexeme} {depth : Nat}
  (expression : ∀ {n level ts us}, source.drop n = ts → SameTokens ts us →
    Agree source (Paired bare marks source n) (expression depth level ts)
      (expression depth level us))
  (arguments : ∀ {n ts us}, source.drop n = ts → SameTokens ts us →
    Agree source (Paired bareAll marksAll source n) (arguments depth ts) (arguments depth us))

include arguments

/-- A name is a variable or, with arguments, a call. -/
theorem agree_name_step {n : Nat} {i : Ident} {c d : Span} {ts us : List Lexeme}
    (here : source.drop n = ⟨.name i, c⟩ :: ts) (same : SameTokens ts us) :
    Agree source (Paired bare marks source n) (operand (depth + 1) (⟨.name i, c⟩ :: ts))
      (operand (depth + 1) (⟨.name i, d⟩ :: us)) := by
  have next := drop_succ_of_drop here
  have points : (Mark.token c (.name i)).Points source n := Mark.points_of_drop here fun _ => rfl
  rcases same.either .leftParen rfl with ⟨_, _, rest, rest', rfl, rfl, tails⟩ | ⟨missed, missed'⟩
  · refine .bind (arguments (drop_succ_of_drop next) tails) ?_
    rintro es es' k left left' ⟨bare, marked⟩ there same
    refine .ok ⟨?_, .head points marked (by omega)⟩ there same
    rw [Expr.bare, Expr.bare, bare]
  · rw [operand.eq_4 _ _ _ _ missed, operand.eq_4 _ _ _ _ missed']
    exact .ok ⟨rfl, .single points (Nat.lt_succ_self n)⟩ next same

/-- A call of a function of the program is read alike, if expressions and arguments are one level
deeper. -/
theorem agree_user_step {n : Nat} {c d : Span} {ts us : List Lexeme}
    (here : source.drop n = ⟨.word .FN, c⟩ :: ts) (same : SameTokens ts us) :
    Agree source (Paired bare marks source n) (operand (depth + 1) (⟨.word .FN, c⟩ :: ts))
      (operand (depth + 1) (⟨.word .FN, d⟩ :: us)) := by
  have points : (Mark.token c (.word .FN)).Points source n := Mark.points_of_drop here fun _ => rfl
  obtain ⟨i, k, rest, rest', named, named', le, there, same⟩ :=
    Lexeme.exists_functionName (drop_succ_of_drop here) same
  rcases same.either .leftParen rfl with ⟨_, _, rest, rest', rfl, rfl, tails⟩ | ⟨missed, missed'⟩
  · rw [operand, operand, named, named']
    refine .bind (arguments (drop_succ_of_drop there) tails) ?_
    rintro es es' k left left' ⟨bare, marked⟩ there same
    refine .ok ⟨?_, .head points marked (by omega)⟩ there same
    rw [Expr.bare, Expr.bare, bare]
  · rw [operand_user_of_unopened named missed, operand_user_of_unopened named' missed']
    exact .ok ⟨rfl, .single points (by omega)⟩ there same

include expression

/-- An operand is read alike, if expressions and arguments are one level deeper. -/
theorem agree_operand_step {n : Nat} {ts us : List Lexeme} (here : source.drop n = ts)
    (same : SameTokens ts us) :
    Agree source (Paired bare marks source n) (operand (depth + 1) ts)
      (operand (depth + 1) us) := by
  cases same with
  | nil => exact .refuse here _ _
  | token t c d tails =>
    have next := drop_succ_of_drop here
    cases t with
    | leftParen =>
      refine .bind (expression next tails) ?_
      rintro e e' k rest rest' ⟨bare, marked⟩ there same
      refine .expect rfl there same fun rest rest' there same => ?_
      exact .ok ⟨bare, (marked.start_le (Nat.le_succ n)).stop_le (Nat.le_succ k)⟩ there same
    | name i => exact agree_name_step arguments here tails
    | word w =>
      cases w with
      | FN => exact agree_user_step arguments here tails
      | _ => exact .refuse here _ _
    | number s =>
      rw [operand, operand]
      cases value : Numeral.read? s.toList with
      | none => exact .refuse here _ _
      | some x =>
        have points : (Mark.number c x).Points source n :=
          Mark.points_of_drop here fun _ => ⟨s, rfl, value⟩
        exact .ok ⟨rfl, .single points (Nat.lt_succ_self n)⟩ next tails
    | string s =>
      have points : (Mark.token c (.string s)).Points source n :=
        Mark.points_of_drop here fun _ => rfl
      exact .ok ⟨rfl, .single points (Nat.lt_succ_self n)⟩ next tails
    | operator op =>
      have points : (Mark.token c (.operator op)).Points source n :=
        Mark.points_of_drop here fun _ => rfl
      cases op with
      | not =>
        refine .bind (expression next tails) ?_
        rintro e e' k rest rest' ⟨bare, marked⟩ there same
        refine .ok ⟨?_, .head points marked (Nat.lt_succ_self n)⟩ there same
        rw [Expr.bare, Expr.bare, bare]
      | binary op =>
        cases op with
        | subtract =>
          refine .bind (expression next tails) ?_
          rintro e e' k rest rest' ⟨bare, marked⟩ there same
          refine .ok ⟨?_, .head points marked (Nat.lt_succ_self n)⟩ there same
          rw [Expr.bare, Expr.bare, bare]
        | add =>
          refine (expression next tails).imp ?_
          rintro e e' k ⟨bare, marked⟩
          exact ⟨bare, marked.start_le (Nat.le_succ n)⟩
        | _ => exact .refuse here _ _
    | _ => exact .refuse here _ _
  | word other =>
    cases other <;> exact .refuse here _ _

end Step

/-- At every depth, expressions and their parts are read alike. -/
theorem agree_of_depth (source : List Lexeme) (depth : Nat) :
    (∀ {n level ts us}, source.drop n = ts → SameTokens ts us →
      Agree source (Paired bare marks source n) (expression depth level ts)
        (expression depth level us)) ∧
    (∀ {n ts us}, source.drop n = ts → SameTokens ts us →
      Agree source (Paired bare marks source n) (operand depth ts) (operand depth us)) ∧
    (∀ {n k level left left' ts us}, source.drop k = ts → SameTokens ts us →
      Paired bare marks source n left left' k →
      Agree source (Paired bare marks source n) (operators depth level left ts)
        (operators depth level left' us)) ∧
    ∀ {n ts us}, source.drop n = ts → SameTokens ts us →
      Agree source (Paired bareAll marksAll source n) (arguments depth ts)
        (arguments depth us) := by
  -- The four readers call each other with one less depth, so they are taken together.
  induction depth with
  | zero =>
    exact ⟨fun here _ => .exhausted here _, fun here _ => .exhausted here _,
      fun here _ _ => .exhausted here _, fun here _ => .exhausted here _⟩
  | succ depth ih =>
    obtain ⟨expressionIh, operandIh, operatorsIh, argumentsIh⟩ := ih
    refine ⟨?_, agree_operand_step expressionIh argumentsIh, ?_, ?_⟩
    · intro n level ts us here same
      refine .bind (operandIh here same) fun left left' k rest rest' good there same => ?_
      exact operatorsIh there same good
    · intro n k level left left' ts us here same good
      cases same with
      | nil => exact .ok good here .nil
      | token t c d tails =>
        cases t with
        | operator op =>
          cases op with
          | not => exact .ok good here (.token _ c d tails)
          | binary op =>
            rw [operators, operators]
            by_cases loose : op.level ≤ level
            · rw [if_pos loose, if_pos loose]
              exact .ok good here (.token _ c d tails)
            · rw [if_neg loose, if_neg loose]
              refine .bind (expressionIh (drop_succ_of_drop here) tails) ?_
              rintro right right' m rest rest' ⟨bare, marked⟩ there same
              refine operatorsIh there same ⟨?_, good.2.append (.head ?_ marked ?_)⟩
              · rw [Expr.bare, Expr.bare, good.1, bare]
              · exact Mark.points_of_drop here fun _ => rfl
              · exact Nat.lt_succ_self k
        | _ => exact .ok good here (.token _ c d tails)
      | word other c d tails => exact .ok good here (.word other c d tails)
    · intro n ts us here same
      refine .bind (expressionIh here same) ?_
      rintro e e' k rest rest' ⟨bare, marked⟩ there same
      cases same with
      | nil => exact .refuse there _ _
      | token t c d tails =>
        cases t with
        | rightParen =>
          refine .ok ⟨congrArg ([·]) bare, ?_⟩ (drop_succ_of_drop there) tails
          exact marked.append (.nil (Nat.le_succ k))
        | comma =>
          refine .bind (argumentsIh (drop_succ_of_drop there) tails) ?_
          rintro es es' m rest rest' ⟨bares, others⟩ there same
          refine .ok ⟨?_, marked.append (others.start_le (Nat.le_succ k))⟩ there same
          rw [bareAll, bareAll, bare, bares]
        | _ => exact .refuse there _ _
      | word => exact .refuse there _ _

variable {source ts us : List Lexeme} {n : Nat}

/-- Expressions are read alike. -/
theorem agree_read (here : source.drop n = ts) (same : SameTokens ts us) :
    Agree source (Paired bare marks source n) (read ts) (read us) := by
  rw [read, read, depthFor, depthFor, same.length_eq]
  exact (agree_of_depth source _).1 here same

/-- Arguments are read alike. -/
theorem agree_readArguments (here : source.drop n = ts) (same : SameTokens ts us) :
    Agree source (Paired bareAll marksAll source n) (readArguments ts) (readArguments us) := by
  rw [readArguments, readArguments, depthFor, depthFor, same.length_eq]
  exact (agree_of_depth source _).2.2.2 here same

end Expr

end NumberedBasic
