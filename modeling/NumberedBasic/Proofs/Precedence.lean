import NumberedBasic.Proofs.CursorReading

/-!
# The table of precedence

`Spelled` says which tokens spell an expression in order, with parentheses around the operands that
a rule picks. Two rules matter. `needsParens` picks the operands that the table of precedence
requires it for, and every spelling by this rule is read back as the expression it spells. The rule
that picks none gives the tokens of the tree alone, and these are what was read of any line, up to
blanks, grouping parentheses and signs without effect. Both halves are `read_by_precedence`.
-/

set_option autoImplicit false

namespace NumberedBasic

namespace Token

/-- The tokens of an expression that its tree keeps: all but blanks, parentheses for grouping and
plus signs before an operand. `due` says that an operand must come next: a parenthesis there groups,
and any other belongs to a call. `opened` tells for each open parenthesis whether it belongs to a
call. -/
def significant (due : Bool) (opened : List Bool) : List Token → List Token
  | [] => []
  | t :: ts =>
    match t with
    | .blank _ => significant due opened ts
    | .leftParen =>
      if due then significant true (false :: opened) ts
      else t :: significant true (true :: opened) ts
    | .rightParen =>
      match opened with
      | false :: outer => significant false outer ts
      | _ => t :: significant false opened.tail ts
    | .operator op =>
      if due = true ∧ op = .binary .add then significant true opened ts
      else t :: significant true opened ts
    | .comma => t :: significant true opened ts
    | _ => t :: significant false opened ts

/-- Blanks are not among the tokens that a tree keeps. -/
theorem significant_filter (due : Bool) (opened : List Bool) (ts : List Token) :
    significant due opened (ts.filter isSolid) = significant due opened ts := by
  induction ts generalizing due opened with
  | nil => rfl
  | cons t ts ih => cases t <;> simp [List.filter_cons, isSolid, significant, ih]

end Token

namespace Lexeme

/-- A solid token is placed where it starts, and takes up as many columns as its text has
characters. -/
theorem place_of_isSolid {t : Token} (h : t.isSolid = true) (start : Nat) (ts : List Token) :
    place start (t :: ts) =
      ⟨t, start, start + t.text.length⟩ :: place (start + t.text.length) ts := by
  cases t with
  | blank => cases h
  | _ => rfl

/-- A blank is passed over, but takes up its columns. -/
theorem place_of_not_isSolid {t : Token} (h : ¬t.isSolid = true) (start : Nat) (ts : List Token) :
    place start (t :: ts) = place (start + t.text.length) ts := by
  cases t with
  | blank => rfl
  | _ => exact absurd rfl h

/-- The width of tokens is that of the first one and of the others. -/
theorem width_cons (t : Token) (ts : List Token) : width (t :: ts) = t.text.length + width ts := by
  simp [width]

/-- Tokens behind others are placed where those end. -/
theorem place_append (start : Nat) (before after : List Token) :
    place start (before ++ after) = place start before ++ place (start + width before) after := by
  induction before generalizing start with
  | nil => rfl
  | cons t before ih =>
    by_cases solid : t.isSolid = true
    · simp [place_of_isSolid solid, ih, width_cons, Nat.add_assoc]
    · simp [place_of_not_isSolid solid, ih, width_cons, Nat.add_assoc]

/-- Placing tokens keeps the solid ones in order. -/
theorem map_token_place (start : Nat) (ts : List Token) :
    (place start ts).map token = ts.filter Token.isSolid := by
  induction ts generalizing start with
  | nil => rfl
  | cons t ts ih =>
    by_cases solid : t.isSolid = true
    · simp [place_of_isSolid solid, ih, List.filter_cons_of_pos solid]
    · simp [place_of_not_isSolid solid, ih, List.filter_cons_of_neg solid]

/-- Tokens are cut where their lexemes are. -/
theorem exists_of_place_eq_append {start : Nat} {ts : List Token} {used rest : List Lexeme}
    (h : place start ts = used ++ rest) :
    ∃ before after, ts = before ++ after ∧ place start before = used ∧
      place (start + width before) after = rest := by
  induction ts generalizing start used with
  | nil =>
    obtain ⟨rfl, rfl⟩ := List.append_eq_nil_iff.mp h.symm
    exact ⟨[], [], rfl, rfl, rfl⟩
  | cons t ts ih =>
    by_cases solid : t.isSolid = true
    · cases used with
      | nil => exact ⟨[], t :: ts, rfl, rfl, h⟩
      | cons u used =>
        rw [place_of_isSolid solid] at h
        rw [List.cons_append] at h
        obtain ⟨rfl, tail⟩ := List.cons.inj h
        obtain ⟨before, after, rfl, same, left⟩ := ih tail
        refine ⟨t :: before, after, rfl, ?_, ?_⟩
        · rw [place_of_isSolid solid, same]
        · rw [width_cons, ← Nat.add_assoc, left]
    · rw [place_of_not_isSolid solid] at h
      obtain ⟨before, after, rfl, same, left⟩ := ih h
      refine ⟨t :: before, after, rfl, ?_, ?_⟩
      · rw [place_of_not_isSolid solid, same]
      · rw [width_cons, ← Nat.add_assoc, left]

end Lexeme

namespace Expr

/-! ## Spellings -/

/-- How tightly a binary operator binds, as its row in the table of precedence. -/
def rank : BinaryOp → Nat
  | .or => 1
  | .and => 2
  | .equal | .notEqual | .less | .lessEqual | .greater | .greaterEqual => 3
  | .add | .subtract => 4
  | .multiply | .divide => 5
  | .power => 7

/-- The row of negation and `NOT`. -/
def unaryRank : Nat := 6

/-- Where an operand stands: beside a binary operator, or after negation or `NOT`. -/
inductive Position where
  | left (op : BinaryOp)
  | right (op : BinaryOp)
  | unary

/-- Whether an operand has to be put into parentheses. -/
def needsParens : Position → Expr → Bool
  | .left op, .binary _ inner _ _ => rank inner < rank op
  | .right op, .binary _ inner _ _ => rank inner ≤ rank op
  | .unary, .binary _ inner _ _ => rank inner < unaryRank
  | .left op, .negate _ _ | .left op, .not _ _ => op = .power
  | .right op, .negate _ _ | .right op, .not _ _ => op = .power
  | _, _ => false

/-- Tokens, in parentheses or not. -/
def enclose : Bool → List Token → List Token
  | true, ts => .leftParen :: (ts ++ [.rightParen])
  | false, ts => ts

/-- Tokens spell the name of a function of the program. -/
inductive NamesFunction : Ident → List Token → Prop
  | alone : NamesFunction (.ofName "FN") [.word .FN]
  | joined {i : Ident} : NamesFunction (.ofName ("FN" ++ i.name)) [.word .FN, .name i]

section Spelling

variable (wrap : Position → Expr → Bool)

mutual

/-- Tokens spell an expression, with parentheses around the operands that `wrap` picks. -/
inductive Spelled : Expr → List Token → Prop
  | number {c : Span} {s : String} {x : Float} (value : Numeral.read? s.toList = some x) :
      Spelled (.number c x) [.number s]
  | string {c : Span} {s : String} : Spelled (.string c s) [.string s]
  | scalar {c : Span} {i : Ident} : Spelled (.scalar c i) [.name i]
  | call {c : Span} {i : Ident} {es : List Expr} {ts : List Token} (arguments : SpelledAll es ts) :
      Spelled (.call c i es) (.name i :: .leftParen :: ts)
  | user {c : Span} {i : Ident} {ns : List Token} (named : NamesFunction i ns) :
      Spelled (.user c i []) ns
  | userCall {c : Span} {i : Ident} {es : List Expr} {ns ts : List Token}
      (named : NamesFunction i ns) (arguments : SpelledAll es ts) :
      Spelled (.user c i es) (ns ++ .leftParen :: ts)
  | negate {c : Span} {e : Expr} {ts : List Token} (operand : Spelled e ts) :
      Spelled (.negate c e) (.operator (.binary .subtract) :: enclose (wrap .unary e) ts)
  | not {c : Span} {e : Expr} {ts : List Token} (operand : Spelled e ts) :
      Spelled (.not c e) (.operator .not :: enclose (wrap .unary e) ts)
  | binary {c : Span} {op : BinaryOp} {l r : Expr} {ls rs : List Token} (left : Spelled l ls)
      (right : Spelled r rs) :
      Spelled (.binary c op l r)
        (enclose (wrap (.left op) l) ls ++
          .operator (.binary op) :: enclose (wrap (.right op) r) rs)

/-- Tokens spell arguments and the parenthesis that closes them. -/
inductive SpelledAll : List Expr → List Token → Prop
  | last {e : Expr} {ts : List Token} (only : Spelled e ts) : SpelledAll [e] (ts ++ [.rightParen])
  | more {e : Expr} {es : List Expr} {ts us : List Token} (first : Spelled e ts)
      (others : SpelledAll es us) : SpelledAll (e :: es) (ts ++ .comma :: us)

end

end Spelling

mutual

/-- An expression without its columns. -/
def bare : Expr → Expr
  | .number _ x => .number .none x
  | .string _ s => .string .none s
  | .scalar _ n => .scalar .none n
  | .call _ n es => .call .none n (bareAll es)
  | .user _ n es => .user .none n (bareAll es)
  | .negate _ e => .negate .none (bare e)
  | .not _ e => .not .none (bare e)
  | .binary _ op l r => .binary .none op (bare l) (bare r)

/-- Expressions without their columns. -/
def bareAll : List Expr → List Expr
  | [] => []
  | e :: es => bare e :: bareAll es

end

/-! ## What is read is spelled -/

/-- No operand in parentheses. -/
def neverParens : Position → Expr → Bool :=
  fun _ _ => false

/-- What `significant` keeps of lexemes that were read: `due` says whether an operand had to come
first, and `inner` are the parentheses they close. -/
def Keeps (due : Bool) (inner : List Bool) (used : List Lexeme) (out : List Token) : Prop :=
  ∀ opened more, Token.significant due (inner ++ opened) (used.map Lexeme.token ++ more) =
    out ++ Token.significant false opened more

/-- The lexemes that the name of a function is read from spell it, and all of them are kept. -/
theorem exists_of_functionName {ts rest : List Lexeme} {n : Ident}
    (h : Lexeme.functionName ts = (n, rest)) (c : Span) :
    ∃ used out, ts = used ++ rest ∧ NamesFunction n out ∧
      Keeps true [] (⟨.word .FN, c⟩ :: used) out := by
  unfold Lexeme.functionName at h
  split at h
  next n c rest =>
    cases h
    exact ⟨[⟨.name n, c⟩], _, rfl, .joined, fun _ _ => rfl⟩
  next =>
    cases h
    exact ⟨[], _, rfl, .alone, fun _ _ => rfl⟩

mutual

/-- The lexemes that an expression is read from spell it, once grouping is left out. -/
theorem Reads.spelled {level : Nat} {ts rest : List Lexeme} {e : Expr} :
    Reads level ts e rest →
      ∃ used out, ts = used ++ rest ∧ Spelled neverParens e out ∧ Keeps true [] used out
  | .intro first more => by
    obtain ⟨used, out, rfl, spelled, kept⟩ := first.spelled
    obtain ⟨used', out', rfl, spelled', kept'⟩ := more.spelled spelled
    refine ⟨used ++ used', out ++ out', by simp, spelled', ?_⟩
    intro opened more
    have first := kept opened (used'.map Lexeme.token ++ more)
    have second := kept' opened more
    rw [List.map_append, List.append_assoc, first, List.append_assoc]
    exact congrArg (out ++ ·) second

/-- The lexemes that an operand is read from spell it, once grouping is left out. -/
theorem ReadsOperand.spelled {ts rest : List Lexeme} {e : Expr} :
    ReadsOperand ts e rest →
      ∃ used out, ts = used ++ rest ∧ Spelled neverParens e out ∧ Keeps true [] used out
  | .group (c := c) (d := d) inner => by
    obtain ⟨used, out, rfl, spelled, kept⟩ := inner.spelled
    refine ⟨⟨.leftParen, c⟩ :: used ++ [⟨.rightParen, d⟩], out, by simp, spelled, ?_⟩
    intro opened more
    -- The parenthesis for grouping is noted as such, so that the one that closes it is left out as
    -- well.
    have inside := kept (false :: opened) (.rightParen :: more)
    simpa [Token.significant] using inside
  | .call (c := c) (d := d) arguments => by
    obtain ⟨used, out, rfl, spelled, kept⟩ := arguments.spelled
    refine ⟨⟨.name _, c⟩ :: ⟨.leftParen, d⟩ :: used, _, rfl, .call spelled, ?_⟩
    intro opened more
    simpa [Token.significant] using kept opened more
  | .scalar _ => ⟨[_], _, rfl, .scalar, fun _ _ => rfl⟩
  | .userCall (c := c) (d := d) named arguments => by
    obtain ⟨front, name, rfl, spelledName, keptName⟩ := exists_of_functionName named c
    obtain ⟨used, out, rfl, spelled, kept⟩ := arguments.spelled
    refine ⟨⟨.word .FN, c⟩ :: front ++ ⟨.leftParen, d⟩ :: used, _, by simp,
      .userCall spelledName spelled, ?_⟩
    intro opened more
    have before := keptName opened (.leftParen :: (used.map Lexeme.token ++ more))
    have inside := kept opened more
    simp [Token.significant] at before inside ⊢
    rw [before, inside]
  | .user (c := c) named _ => by
    obtain ⟨used, out, rfl, spelled, kept⟩ := exists_of_functionName named c
    exact ⟨⟨.word .FN, c⟩ :: used, out, rfl, .user spelled, kept⟩
  | .number value => ⟨[_], _, rfl, .number value, fun _ _ => rfl⟩
  | .string => ⟨[_], _, rfl, .string, fun _ _ => rfl⟩
  | .negate (c := c) inner => by
    obtain ⟨used, out, rfl, spelled, kept⟩ := inner.spelled
    refine ⟨⟨.operator (.binary .subtract), c⟩ :: used, _, rfl, .negate spelled, ?_⟩
    intro opened more
    simpa [Token.significant, neverParens, enclose] using kept opened more
  | .plus (c := c) inner => by
    obtain ⟨used, out, rfl, spelled, kept⟩ := inner.spelled
    refine ⟨⟨.operator (.binary .add), c⟩ :: used, _, rfl, spelled, ?_⟩
    intro opened more
    simpa [Token.significant] using kept opened more
  | .not (c := c) inner => by
    obtain ⟨used, out, rfl, spelled, kept⟩ := inner.spelled
    refine ⟨⟨.operator .not, c⟩ :: used, _, rfl, .not spelled, ?_⟩
    intro opened more
    simpa [Token.significant, neverParens, enclose] using kept opened more

/-- The lexemes that operators are read from go on from the spelling of the operand before them. -/
theorem Extends.spelled {level : Nat} {ts rest : List Lexeme} {left e : Expr} {front : List Token}
    (leftSpelled : Spelled neverParens left front) :
    Extends level left ts e rest →
      ∃ used out, ts = used ++ rest ∧ Spelled neverParens e (front ++ out) ∧ Keeps false [] used out
  | .stop loose => ⟨[], [], rfl, by simpa using leftSpelled, fun _ _ => rfl⟩
  | @Extends.binary _ c op _ _ _ _ _ _ tight operand more => by
    obtain ⟨used, out, rfl, spelled, kept⟩ := operand.spelled
    have whole : Spelled neverParens (.binary c op left _) _ := .binary leftSpelled spelled
    obtain ⟨used', out', rfl, spelled', kept'⟩ := more.spelled whole
    refine ⟨⟨.operator (.binary op), c⟩ :: used ++ used', .operator (.binary op) :: out ++ out',
      by simp, ?_, ?_⟩
    · simpa [neverParens, enclose] using spelled'
    · intro opened more
      have right := kept opened (used'.map Lexeme.token ++ more)
      have after := kept' opened more
      simp [Token.significant] at right after ⊢
      rw [right, after]

/-- The lexemes that arguments are read from spell them, once grouping is left out. -/
theorem ReadsArguments.spelled {ts rest : List Lexeme} {es : List Expr} :
    ReadsArguments ts es rest →
      ∃ used out, ts = used ++ rest ∧ SpelledAll neverParens es out ∧ Keeps true [true] used out
  | .last (c := c) only => by
    obtain ⟨used, out, rfl, spelled, kept⟩ := only.spelled
    refine ⟨used ++ [⟨.rightParen, c⟩], _, by simp, .last spelled, ?_⟩
    intro opened more
    simpa [Token.significant] using kept (true :: opened) (.rightParen :: more)
  | .more (c := c) first others => by
    obtain ⟨used, out, rfl, spelled, kept⟩ := first.spelled
    obtain ⟨used', out', rfl, spelled', kept'⟩ := others.spelled
    refine ⟨used ++ ⟨.comma, c⟩ :: used', _, by simp, .more spelled spelled', ?_⟩
    intro opened more
    have before := kept (true :: opened) (.comma :: (used'.map Lexeme.token ++ more))
    have after := kept' opened more
    simp [Token.significant] at before after ⊢
    rw [before, after]

end

/-! ## What is spelled is read -/

variable {level : Nat} {ts rest : List Lexeme} {e : Expr}

/-- No opening parenthesis is next, and no name. -/
def Unjoined (ts : List Lexeme) : Prop :=
  Unopened ts ∧ ∀ n column rest, ts ≠ ⟨.name n, column⟩ :: rest

/-- How tightly an expression holds its last operand. -/
def grip : Expr → Nat
  | .binary _ op _ _ => op.level
  | .negate _ _ | .not _ _ => unaryLevel
  | _ => BinaryOp.power.level

/-- An expression is not broken up by a reader that takes operators tighter than `level`. -/
def Fits (level : Nat) : Expr → Prop
  | .binary _ op _ _ => level < op.level
  | _ => True

/-- Where no operator binds tighter than a level, none binds tighter than a higher one. -/
theorem Loose.mono {level level' : Nat} (loose : Loose level ts) (le : level ≤ level') :
    Loose level' ts :=
  fun op column rest same => Nat.le_trans (loose op column rest same) le

/-- Operators bind in the order of their rows in the table. -/
theorem level_eq_rank (op : BinaryOp) : op.level = 10 * rank op := by
  cases op <;> rfl

/-- No row of the table is numbered zero. -/
theorem rank_pos (op : BinaryOp) : 0 < rank op := by
  cases op <;> decide

/-- Only a power binds tighter than negation and `NOT`. -/
theorem rank_lt_unaryRank {op : BinaryOp} (h : op ≠ .power) : rank op < unaryRank := by
  cases op with
  | power => exact absurd rfl h
  | _ => decide

/-- No operator binds tighter than a power. -/
theorem loose_power (ts : List Lexeme) : Loose BinaryOp.power.level ts := by
  intro op _ _ _
  cases op <;> decide

/-- Every expression fits where all operators are taken. -/
theorem fits_zero (e : Expr) : Fits 0 e := by
  cases e with
  | binary _ op =>
    have := rank_pos op
    show 0 < op.level
    rw [level_eq_rank]
    omega
  | _ => trivial

/-- When a reader stands where an operand may, and what may follow the operand. -/
def Position.Admits : Position → Nat → List Lexeme → Prop
  | .left op, level, rest => level < op.level ∧ Loose op.level rest
  | .right op, level, rest => level = op.level ∧ Loose op.level rest
  | .unary, level, rest => level = unaryLevel ∧ Loose unaryLevel rest

/-- An operand without parentheses fits where it stands. -/
theorem Position.Admits.fits {position : Position} (admits : position.Admits level rest)
    (free : needsParens position e = false) : Fits level e ∧ Loose (grip e) rest := by
  have unary : unaryLevel = 10 * unaryRank := rfl
  cases e with
  | binary _ inner =>
    have innerLevel := level_eq_rank inner
    cases position with
    | left op =>
      have opLevel := level_eq_rank op
      have notLooser : rank op ≤ rank inner := by simpa [needsParens] using free
      refine ⟨?_, admits.2.mono ?_⟩
      · exact Nat.lt_of_lt_of_le admits.1 (by omega)
      · show op.level ≤ inner.level
        omega
    | right op =>
      have opLevel := level_eq_rank op
      have tighter : rank op < rank inner := by simpa [needsParens] using free
      obtain ⟨rfl, loose⟩ := admits
      refine ⟨?_, loose.mono ?_⟩
      · show op.level < inner.level
        omega
      · show op.level ≤ inner.level
        omega
    | unary =>
      have notLooser : unaryRank ≤ rank inner := by simpa [needsParens] using free
      have power : inner = .power :=
        Decidable.by_contra fun other => Nat.not_lt_of_le notLooser (rank_lt_unaryRank other)
      obtain ⟨rfl, -⟩ := admits
      subst power
      exact ⟨by show unaryLevel < BinaryOp.power.level; decide, loose_power rest⟩
  | negate | not =>
    refine ⟨trivial, ?_⟩
    cases position with
    | left op | right op =>
      have opLevel := level_eq_rank op
      have := rank_lt_unaryRank (show op ≠ .power by simpa [needsParens] using free)
      refine admits.2.mono ?_
      show op.level ≤ unaryLevel
      omega
    | unary => exact admits.2
  | _ => exact ⟨trivial, loose_power rest⟩

/-- Lexemes that are read as an expression, up to columns, wherever it fits and nothing that follows
can be drawn into it. -/
def ReadBack (e : Expr) (ts : List Lexeme) : Prop :=
  ∃ e', e'.bare = e.bare ∧ ∀ {level rest whole final}, Fits level e → Loose (grip e) rest →
    Unjoined rest → Extends level e' rest whole final → Reads level (ts ++ rest) whole final

/-- The same for an operand, in parentheses if it needs them. -/
def ReadBackAt (position : Position) (e : Expr) (ts : List Lexeme) : Prop :=
  ∃ e', e'.bare = e.bare ∧ ∀ {level rest whole final}, position.Admits level rest →
    Unjoined rest → Extends level e' rest whole final → Reads level (ts ++ rest) whole final

/-- A token that no expression goes on with. -/
def Delimits (t : Token) : Prop :=
  (∀ op, t ≠ .operator op) ∧ t ≠ .leftParen ∧ ∀ n, t ≠ .name n

/-- Where a token that delimits expressions is next, no operator is. -/
theorem loose_of_delimits {t : Token} (h : Delimits t) (column : Span) (rest : List Lexeme) :
    Loose level (⟨t, column⟩ :: rest) := by
  rintro op _ _ ⟨⟩
  exact absurd rfl (h.1 _)

/-- Where a token that delimits expressions is next, neither a parenthesis nor a name is. -/
theorem unjoined_of_delimits {t : Token} (h : Delimits t) (column : Span) (rest : List Lexeme) :
    Unjoined (⟨t, column⟩ :: rest) := by
  constructor
  · rintro _ _ ⟨⟩
    exact h.2.1 rfl
  · rintro n _ _ ⟨⟩
    exact h.2.2 n rfl

/-- A closing parenthesis delimits expressions. -/
theorem delimits_rightParen : Delimits .rightParen :=
  ⟨nofun, nofun, nofun⟩

/-- A comma delimits expressions. -/
theorem delimits_comma : Delimits .comma :=
  ⟨nofun, nofun, nofun⟩

/-- An operator is neither a parenthesis nor a name. -/
theorem unjoined_operator (op : Operator) (column : Span) (rest : List Lexeme) :
    Unjoined (⟨.operator op, column⟩ :: rest) :=
  ⟨nofun, nofun⟩

/-- Before a token that delimits it, an expression is read to its end. -/
theorem ReadBack.before {ls : List Lexeme} (back : ReadBack e ls) :
    ∃ e', e'.bare = e.bare ∧ ∀ {t} (_ : Delimits t) column rest,
      Reads 0 (ls ++ ⟨t, column⟩ :: rest) e' (⟨t, column⟩ :: rest) := by
  obtain ⟨e', same, reads⟩ := back
  refine ⟨e', same, fun delimits column rest => ?_⟩
  have loose : ∀ level, Loose level (⟨_, column⟩ :: rest) :=
    fun _ => loose_of_delimits delimits column rest
  exact reads (fits_zero e) (loose _) (unjoined_of_delimits delimits column rest) (.stop (loose 0))

/-- Lexemes whose tokens start with a token start with a lexeme of it. -/
theorem exists_of_map_eq_cons {t : Token} {ts : List Token} {ls : List Lexeme}
    (h : ls.map Lexeme.token = t :: ts) :
    ∃ column tail, ls = ⟨t, column⟩ :: tail ∧ tail.map Lexeme.token = ts := by
  obtain ⟨⟨_, column⟩, tail, rfl, rfl, same⟩ := List.map_eq_cons_iff.mp h
  exact ⟨column, tail, rfl, same⟩

/-- The name of a function is read back from the tokens that spell it, if no further name
follows. -/
theorem NamesFunction.functionName_eq {n : Ident} {ts : List Token} {ls : List Lexeme}
    (named : NamesFunction n ts) (spelled : ls.map Lexeme.token = ts) :
    ∃ column tail, ls = ⟨.word .FN, column⟩ :: tail ∧
      ∀ {rest}, (∀ n column after, rest ≠ ⟨.name n, column⟩ :: after) →
        Lexeme.functionName (tail ++ rest) = (n, rest) := by
  cases named with
  | alone =>
    obtain ⟨c, tail, rfl, empty⟩ := exists_of_map_eq_cons spelled
    obtain rfl := List.map_eq_nil_iff.mp empty
    exact ⟨c, [], rfl, fun unnamed => Lexeme.functionName.eq_2 _ unnamed⟩
  | joined =>
    obtain ⟨c, tail, rfl, spelledTail⟩ := exists_of_map_eq_cons spelled
    obtain ⟨d, none, rfl, empty⟩ := exists_of_map_eq_cons spelledTail
    obtain rfl := List.map_eq_nil_iff.mp empty
    exact ⟨c, _, rfl, fun _ => rfl⟩

/-- An operand in parentheses where it needs them is read back if what is inside is. -/
theorem ReadBackAt.of_enclose {position : Position} {ts : List Token}
    (back : ∀ ls : List Lexeme, ls.map Lexeme.token = ts → ReadBack e ls) (ls : List Lexeme)
    (spelled : ls.map Lexeme.token = enclose (needsParens position e) ts) :
    ReadBackAt position e ls := by
  cases needed : needsParens position e with
  | false =>
    rw [needed] at spelled
    obtain ⟨e', same, reads⟩ := back ls spelled
    refine ⟨e', same, fun admits unjoined extend => ?_⟩
    have free := admits.fits needed
    exact reads free.1 free.2 unjoined extend
  | true =>
    rw [needed] at spelled
    obtain ⟨c, tail, rfl, spelledTail⟩ := exists_of_map_eq_cons spelled
    obtain ⟨inside, closing, rfl, inner, closed⟩ := List.map_eq_append_iff.mp spelledTail
    obtain ⟨d, none, rfl, empty⟩ := exists_of_map_eq_cons closed
    obtain rfl := List.map_eq_nil_iff.mp empty
    obtain ⟨e', same, reads⟩ := (back inside inner).before
    refine ⟨e', same, fun {level rest whole final} _ _ extend => ?_⟩
    have grouped := reads delimits_rightParen d rest
    simp only [List.cons_append, List.append_assoc, List.nil_append]
    exact .intro (.group grouped) extend

mutual

/-- An expression is read back from the tokens that spell it with the parentheses it needs. -/
theorem Spelled.readBack {e : Expr} {ts : List Token} : Spelled needsParens e ts →
    ∀ ls : List Lexeme, ls.map Lexeme.token = ts → ReadBack e ls
  | .number value, ls, spelled => by
    obtain ⟨c, tail, rfl, empty⟩ := exists_of_map_eq_cons spelled
    obtain rfl := List.map_eq_nil_iff.mp empty
    exact ⟨.number c _, rfl, fun _ _ _ extend => .intro (.number value) extend⟩
  | .string, ls, spelled => by
    obtain ⟨c, tail, rfl, empty⟩ := exists_of_map_eq_cons spelled
    obtain rfl := List.map_eq_nil_iff.mp empty
    exact ⟨.string c _, rfl, fun _ _ _ extend => .intro .string extend⟩
  | .scalar, ls, spelled => by
    obtain ⟨c, tail, rfl, empty⟩ := exists_of_map_eq_cons spelled
    obtain rfl := List.map_eq_nil_iff.mp empty
    exact ⟨.scalar c _, rfl, fun _ _ unjoined extend => .intro (.scalar unjoined.1) extend⟩
  | .call arguments, ls, spelled => by
    obtain ⟨c, tail, rfl, spelledTail⟩ := exists_of_map_eq_cons spelled
    obtain ⟨d, inside, rfl, spelledInside⟩ := exists_of_map_eq_cons spelledTail
    obtain ⟨es, same, reads⟩ := arguments.readBack inside spelledInside
    refine ⟨.call c _ es, by rw [bare, bare, same], fun _ _ _ extend => ?_⟩
    exact .intro (.call (reads _)) extend
  | .user named, ls, spelled => by
    obtain ⟨c, tail, rfl, name⟩ := named.functionName_eq spelled
    refine ⟨.user c _ [], rfl, fun _ _ unjoined extend => ?_⟩
    exact .intro (.user (name unjoined.2) unjoined.1) extend
  | .userCall named arguments, ls, spelled => by
    obtain ⟨front, after, rfl, spelledFront, spelledAfter⟩ := List.map_eq_append_iff.mp spelled
    obtain ⟨c, tail, rfl, name⟩ := named.functionName_eq spelledFront
    obtain ⟨d, inside, rfl, spelledInside⟩ := exists_of_map_eq_cons spelledAfter
    obtain ⟨es, same, reads⟩ := arguments.readBack inside spelledInside
    refine ⟨.user c _ es, by rw [bare, bare, same], fun _ _ _ extend => ?_⟩
    rw [List.append_assoc]
    exact .intro (.userCall (name nofun) (reads _)) extend
  | .negate operand, ls, spelled => by
    obtain ⟨c, tail, rfl, spelledTail⟩ := exists_of_map_eq_cons spelled
    obtain ⟨e', same, reads⟩ := ReadBackAt.of_enclose operand.readBack tail spelledTail
    refine ⟨.negate c e', by rw [bare, bare, same], fun _ loose unjoined extend => ?_⟩
    exact .intro (.negate (reads ⟨rfl, loose⟩ unjoined (.stop loose))) extend
  | .not operand, ls, spelled => by
    obtain ⟨c, tail, rfl, spelledTail⟩ := exists_of_map_eq_cons spelled
    obtain ⟨e', same, reads⟩ := ReadBackAt.of_enclose operand.readBack tail spelledTail
    refine ⟨.not c e', by rw [bare, bare, same], fun _ loose unjoined extend => ?_⟩
    exact .intro (.not (reads ⟨rfl, loose⟩ unjoined (.stop loose))) extend
  | @Spelled.binary _ _ op l r _ _ left right, ls, spelled => by
    obtain ⟨before, after, rfl, spelledLeft, spelledAfter⟩ := List.map_eq_append_iff.mp spelled
    obtain ⟨c, tail, rfl, spelledRight⟩ := exists_of_map_eq_cons spelledAfter
    obtain ⟨l', sameLeft, readsLeft⟩ := ReadBackAt.of_enclose left.readBack before spelledLeft
    obtain ⟨r', sameRight, readsRight⟩ := ReadBackAt.of_enclose right.readBack tail spelledRight
    refine ⟨.binary c op l' r', by rw [bare, bare, sameLeft, sameRight], ?_⟩
    -- The left operand is read first, and then goes on with the operator, which is loose for it; so
    -- the right operand and what follows are handed to the reading of the left one.
    intro level rest whole final fits loose unjoined extend
    have operand := readsRight ⟨rfl, loose⟩ unjoined (.stop loose)
    have opened : Loose op.level (⟨.operator (.binary op), c⟩ :: (tail ++ rest)) := by
      rintro _ _ _ ⟨⟩
      exact Nat.le_refl _
    rw [List.append_assoc]
    exact readsLeft ⟨fits, opened⟩ (unjoined_operator ..) (.binary fits operand extend)

/-- Arguments are read back from the tokens that spell them with the parentheses they need. -/
theorem SpelledAll.readBack {es : List Expr} {ts : List Token} : SpelledAll needsParens es ts →
    ∀ ls : List Lexeme, ls.map Lexeme.token = ts →
      ∃ es', bareAll es' = bareAll es ∧ ∀ rest, ReadsArguments (ls ++ rest) es' rest
  | .last only, ls, spelled => by
    obtain ⟨inside, closing, rfl, inner, closed⟩ := List.map_eq_append_iff.mp spelled
    obtain ⟨d, none, rfl, empty⟩ := exists_of_map_eq_cons closed
    obtain rfl := List.map_eq_nil_iff.mp empty
    obtain ⟨e', same, reads⟩ := (only.readBack inside inner).before
    refine ⟨[e'], congrArg ([·]) same, fun rest => ?_⟩
    rw [List.append_assoc]
    exact .last (reads delimits_rightParen d rest)
  | .more first others, ls, spelled => by
    obtain ⟨inside, after, rfl, inner, spelledAfter⟩ := List.map_eq_append_iff.mp spelled
    obtain ⟨d, tail, rfl, spelledTail⟩ := exists_of_map_eq_cons spelledAfter
    obtain ⟨e', same, reads⟩ := (first.readBack inside inner).before
    obtain ⟨es', sameAll, readsAll⟩ := others.readBack tail spelledTail
    refine ⟨e' :: es', by rw [bareAll, bareAll, same, sameAll], fun rest => ?_⟩
    rw [List.append_assoc]
    exact .more (reads delimits_comma d (tail ++ rest)) (readsAll rest)

end

/-! ## The table -/

mutual

/-- An expression that can be spelled by one rule for parentheses can be by every other. -/
theorem Spelled.rewrap {wrap : Position → Expr → Bool} (wrap' : Position → Expr → Bool) {e : Expr}
    {ts : List Token} : Spelled wrap e ts → ∃ us, Spelled wrap' e us
  | .number value => ⟨_, .number value⟩
  | .string => ⟨_, .string⟩
  | .scalar => ⟨_, .scalar⟩
  | .call arguments =>
    have ⟨_, spelled⟩ := arguments.rewrap wrap'
    ⟨_, .call spelled⟩
  | .user named => ⟨_, .user named⟩
  | .userCall named arguments =>
    have ⟨_, spelled⟩ := arguments.rewrap wrap'
    ⟨_, .userCall named spelled⟩
  | .negate operand =>
    have ⟨_, spelled⟩ := operand.rewrap wrap'
    ⟨_, .negate spelled⟩
  | .not operand =>
    have ⟨_, spelled⟩ := operand.rewrap wrap'
    ⟨_, .not spelled⟩
  | .binary left right =>
    have ⟨_, spelledLeft⟩ := left.rewrap wrap'
    have ⟨_, spelledRight⟩ := right.rewrap wrap'
    ⟨_, .binary spelledLeft spelledRight⟩

/-- Arguments that can be spelled can be spelled with any choice of parentheses. -/
theorem SpelledAll.rewrap {wrap : Position → Expr → Bool} (wrap' : Position → Expr → Bool)
    {es : List Expr} {ts : List Token} : SpelledAll wrap es ts → ∃ us, SpelledAll wrap' es us
  | .last only =>
    have ⟨_, spelled⟩ := only.rewrap wrap'
    ⟨_, .last spelled⟩
  | .more first others =>
    have ⟨_, spelled⟩ := first.rewrap wrap'
    have ⟨_, spelledOthers⟩ := others.rewrap wrap'
    ⟨_, .more spelled spelledOthers⟩

end

/-- The first token of `ts` that is not blank, if there is one, delimits an expression before it. -/
def Bounded (ts : List Token) : Prop :=
  ∀ t tail, ts.filter Token.isSolid = t :: tail → Delimits t

/-- Where bounded tokens are next, no operator, no parenthesis and no name is. -/
theorem Bounded.place {ts : List Token} (bounded : Bounded ts) (start : Nat) :
    (∀ level, Loose level (Lexeme.place start ts)) ∧ Unjoined (Lexeme.place start ts) := by
  have tokens := Lexeme.map_token_place start ts
  cases placed : Lexeme.place start ts with
  | nil => exact ⟨fun _ => nofun, nofun, nofun⟩
  | cons u tail =>
    obtain ⟨t, column⟩ := u
    rw [placed] at tokens
    have delimits := bounded t _ tokens.symm
    exact ⟨fun _ => loose_of_delimits delimits column tail,
      unjoined_of_delimits delimits column tail⟩

/-- Reading goes by the table of precedence. Whatever is read has a spelling with parentheses only
where the table requires them. Any such spelling, with blanks anywhere and before any tokens that an
expression does not go on with, is read as the expression it spells, and nothing after it is. And
the tokens that were read, without blanks, grouping parentheses and plus signs before operands, are
those of the tree. -/
theorem read_by_precedence :
    (∀ (cursor cursor' : Cursor) (e : Expr), Reader.expression cursor = (.ok e, cursor') →
        ∃ ts, Spelled needsParens e ts) ∧
      (∀ (e : Expr) (start : Nat) (tokens after : List Token) (cursor : Cursor),
        Spelled needsParens e (tokens.filter Token.isSolid) → Bounded after →
        cursor.ahead = Lexeme.place start (tokens ++ after) →
          ∃ e' cursor', e'.bare = e.bare ∧ Reader.expression cursor = (.ok e', cursor') ∧
            cursor'.ahead = Lexeme.place (start + Lexeme.width tokens) after) ∧
      ∀ (start : Nat) (tokens : List Token) (cursor cursor' : Cursor) (e : Expr),
        cursor.ahead = Lexeme.place start tokens →
        Reader.expression cursor = (.ok e, cursor') →
          ∃ consumed after, tokens = consumed ++ after ∧
            cursor'.ahead = Lexeme.place (start + Lexeme.width consumed) after ∧
            Spelled neverParens e (Token.significant true [] consumed) := by
  have follows (cursor : Cursor) := Reader.reads_expression (Cursor.before_ahead cursor)
  refine ⟨?_, ?_, ?_⟩
  · intro cursor cursor' e read
    have h := (read ▸ follows cursor).eq_ok
    obtain ⟨used, out, -, spelled, -⟩ := (read_eq_ok_iff.mp h).spelled
    exact spelled.rewrap needsParens
  · intro e start tokens after cursor spelled bounded ahead
    obtain ⟨e', same, reads⟩ := spelled.readBack _ (Lexeme.map_token_place start tokens)
    obtain ⟨loose, unjoined⟩ := bounded.place (start + Lexeme.width tokens)
    have read : Expr.read cursor.ahead =
        .ok (e', Lexeme.place (start + Lexeme.width tokens) after) := by
      rw [ahead, read_eq_ok_iff, Lexeme.place_append]
      exact reads (fits_zero e) (loose _) unjoined (.stop (loose 0))
    obtain ⟨cursor', done, left⟩ := (read ▸ follows cursor).exists_ok
    exact ⟨e', cursor', same, done, left⟩
  · intro start tokens cursor cursor' e ahead read
    have h := (read ▸ follows cursor).eq_ok
    rw [ahead] at h
    obtain ⟨used, out, same, spelled, kept⟩ := (read_eq_ok_iff.mp h).spelled
    obtain ⟨consumed, after, rfl, rfl, left⟩ := Lexeme.exists_of_place_eq_append same
    refine ⟨consumed, after, rfl, left.symm, ?_⟩
    have all := kept [] []
    rw [List.append_nil, Lexeme.map_token_place, List.append_nil, Token.significant_filter] at all
    rw [all]
    simpa [Token.significant] using spelled

/-- At the start of `-A^(-B)=C THEN` the negated power is compared with `C`, and `THEN` is left. -/
theorem read_by_precedence_unary :
    ∃ e cursor', e.bare = .binary .none .equal
        (.negate .none (.binary .none .power (.scalar .none (.plain "A"))
          (.negate .none (.scalar .none (.plain "B"))))) (.scalar .none (.plain "C")) ∧
      Reader.expression (.start ([.operator (.binary .subtract), .name (.plain "A"),
          .operator (.binary .power), .leftParen, .operator (.binary .subtract),
          .name (.plain "B"), .rightParen, .operator (.binary .equal), .name (.plain "C")] ++
          [.blank 1, .word .THEN])) = (.ok e, cursor') ∧
      cursor'.ahead = [⟨.word .THEN, ⟨10, 14⟩⟩] := by
  have spelled : Spelled needsParens (.binary .none .equal
      (.negate .none (.binary .none .power (.scalar .none (.plain "A"))
        (.negate .none (.scalar .none (.plain "B"))))) (.scalar .none (.plain "C")))
      ([.operator (.binary .subtract), .name (.plain "A"), .operator (.binary .power), .leftParen,
        .operator (.binary .subtract), .name (.plain "B"), .rightParen, .operator (.binary .equal),
        .name (.plain "C")].filter Token.isSolid) :=
    .binary (.negate (.binary .scalar (.negate .scalar))) .scalar
  have bounded : Bounded [.blank 1, .word .THEN] := by
    intro t tail found
    obtain ⟨rfl, -⟩ := List.cons.inj (found.symm.trans (show _ = [Token.word .THEN] from rfl))
    exact ⟨nofun, nofun, nofun⟩
  exact read_by_precedence.2.1 _ 0 _ _ _ spelled bounded rfl

end Expr

end NumberedBasic
