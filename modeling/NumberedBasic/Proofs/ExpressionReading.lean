import NumberedBasic.Proofs.LexemeReaders

/-!
# What the readers of expressions accept

The readers of expressions are bounded by a depth. `Reads` says without one which lexemes spell an
expression as far as some rest, with a rule for each way a reader can go on, and `read_eq_ok_iff`
that the readers accept exactly these: the depth they start from is enough for every line.
-/

set_option autoImplicit false

namespace NumberedBasic.Expr

open Lexeme (functionName expect)

/-- No operator that binds tighter than `level` is next. -/
def Loose (level : Nat) (ts : List Lexeme) : Prop :=
  ∀ op column rest, ts = ⟨.operator (.binary op), column⟩ :: rest → op.level ≤ level

/-- No opening parenthesis is next. -/
def Unopened (ts : List Lexeme) : Prop :=
  ∀ column rest, ts ≠ ⟨.leftParen, column⟩ :: rest

mutual

/-- Lexemes spell an operand and the operators after it that bind tighter than a level. -/
inductive Reads : Nat → List Lexeme → Expr → List Lexeme → Prop
  | intro {level : Nat} {ts next rest : List Lexeme} {left e : Expr}
      (first : ReadsOperand ts left next) (more : Extends level left next e rest) :
      Reads level ts e rest

/-- Lexemes spell an operand. -/
inductive ReadsOperand : List Lexeme → Expr → List Lexeme → Prop
  | group {c d : Span} {ts rest : List Lexeme} {e : Expr}
      (inner : Reads 0 ts e (⟨.rightParen, d⟩ :: rest)) :
      ReadsOperand (⟨.leftParen, c⟩ :: ts) e rest
  | call {c d : Span} {i : Ident} {ts rest : List Lexeme} {es : List Expr}
      (arguments : ReadsArguments ts es rest) :
      ReadsOperand (⟨.name i, c⟩ :: ⟨.leftParen, d⟩ :: ts) (.call c i es) rest
  | scalar {c : Span} {i : Ident} {rest : List Lexeme} (unopened : Unopened rest) :
      ReadsOperand (⟨.name i, c⟩ :: rest) (.scalar c i) rest
  | userCall {c d : Span} {i : Ident} {ts next rest : List Lexeme} {es : List Expr}
      (named : functionName ts = (i, ⟨.leftParen, d⟩ :: next))
      (arguments : ReadsArguments next es rest) :
      ReadsOperand (⟨.word .FN, c⟩ :: ts) (.user c i es) rest
  | user {c : Span} {i : Ident} {ts rest : List Lexeme} (named : functionName ts = (i, rest))
      (unopened : Unopened rest) : ReadsOperand (⟨.word .FN, c⟩ :: ts) (.user c i []) rest
  | number {c : Span} {s : String} {x : Float} {rest : List Lexeme}
      (value : Numeral.read? s.toList = some x) :
      ReadsOperand (⟨.number s, c⟩ :: rest) (.number c x) rest
  | string {c : Span} {s : String} {rest : List Lexeme} :
      ReadsOperand (⟨.string s, c⟩ :: rest) (.string c s) rest
  | negate {c : Span} {ts rest : List Lexeme} {e : Expr} (inner : Reads unaryLevel ts e rest) :
      ReadsOperand (⟨.operator (.binary .subtract), c⟩ :: ts) (.negate c e) rest
  | plus {c : Span} {ts rest : List Lexeme} {e : Expr} (inner : Reads unaryLevel ts e rest) :
      ReadsOperand (⟨.operator (.binary .add), c⟩ :: ts) e rest
  | not {c : Span} {ts rest : List Lexeme} {e : Expr} (inner : Reads unaryLevel ts e rest) :
      ReadsOperand (⟨.operator .not, c⟩ :: ts) (.not c e) rest

/-- Lexemes spell the operators that follow an operand and bind tighter than a level. -/
inductive Extends : Nat → Expr → List Lexeme → Expr → List Lexeme → Prop
  | stop {level : Nat} {left : Expr} {ts : List Lexeme} (loose : Loose level ts) :
      Extends level left ts left ts
  | binary {level : Nat} {c : Span} {op : BinaryOp} {left right e : Expr}
      {ts next rest : List Lexeme} (tight : level < op.level)
      (operand : Reads op.level ts right next)
      (more : Extends level (.binary c op left right) next e rest) :
      Extends level left (⟨.operator (.binary op), c⟩ :: ts) e rest

/-- Lexemes spell arguments and the parenthesis that closes them. -/
inductive ReadsArguments : List Lexeme → List Expr → List Lexeme → Prop
  | last {c : Span} {ts rest : List Lexeme} {e : Expr}
      (only : Reads 0 ts e (⟨.rightParen, c⟩ :: rest)) : ReadsArguments ts [e] rest
  | more {c : Span} {ts next rest : List Lexeme} {e : Expr} {es : List Expr}
      (first : Reads 0 ts e (⟨.comma, c⟩ :: next)) (others : ReadsArguments next es rest) :
      ReadsArguments ts (e :: es) rest

end

variable {depth level : Nat} {ts rest : List Lexeme} {e left : Expr} {es : List Expr}

/-- What is left after the name of a function is no longer than before. -/
theorem length_le_of_functionName {i : Ident} {ts rest : List Lexeme}
    (h : functionName ts = (i, rest)) : rest.length ≤ ts.length := by
  unfold functionName at h
  split at h <;> cases h <;> simp

/-! ## The readers accept no more -/

/-- Where a closing parenthesis was expected and found, it stands first. -/
theorem exists_rightParen_of_expect {detail : String} {ts rest : List Lexeme}
    (h : expect .rightParen detail ts = .ok rest) :
    ∃ column, ts = ⟨.rightParen, column⟩ :: rest := by
  unfold expect at h
  split at h
  next t tail =>
    obtain ⟨token, column⟩ := t
    split at h
    next same =>
      cases same
      cases h
      exact ⟨column, rfl⟩
    next => cases h
  next => cases h

section Step

variable
  (expression : ∀ {level ts e rest}, expression depth level ts = .ok (e, rest) →
    Reads level ts e rest)
  (arguments : ∀ {ts es rest}, arguments depth ts = .ok (es, rest) → ReadsArguments ts es rest)

include expression arguments

/-- What the reader of operands accepts spells an operand, if the readers one level deeper accept
nothing else than they should. -/
theorem readsOperand_step (h : operand (depth + 1) ts = .ok (e, rest)) :
    ReadsOperand ts e rest := by
  rw [operand.eq_def] at h
  dsimp only at h
  split at h
  next =>
    obtain ⟨⟨inner, next⟩, read, h⟩ := exists_of_bind_eq_ok h
    obtain ⟨after, closed, h⟩ := exists_of_bind_eq_ok h
    obtain ⟨column, rfl⟩ := exists_rightParen_of_expect closed
    cases h
    exact .group (expression read)
  next =>
    obtain ⟨⟨es, next⟩, read, h⟩ := exists_of_bind_eq_ok h
    cases h
    exact .call (arguments read)
  next unopened =>
    cases h
    exact .scalar fun column tail same => unopened column tail same
  next c ts =>
    cases named : functionName ts with
    | mk n next =>
      rw [named] at h
      dsimp only at h
      split at h
      next =>
        obtain ⟨⟨es, next⟩, read, h⟩ := exists_of_bind_eq_ok h
        cases h
        exact .userCall named (arguments read)
      next unopened =>
        cases h
        exact .user named fun column tail same => unopened column tail same
  next =>
    split at h
    next value =>
      cases h
      exact .number value
    next => cases h
  next =>
    cases h
    exact .string
  next =>
    obtain ⟨⟨inner, next⟩, read, h⟩ := exists_of_bind_eq_ok h
    cases h
    exact .negate (expression read)
  next => exact .plus (expression h)
  next =>
    obtain ⟨⟨inner, next⟩, read, h⟩ := exists_of_bind_eq_ok h
    cases h
    exact .not (expression read)
  next => cases h

end Step

/-- At every depth, the readers accept nothing that the lexemes do not spell. -/
theorem reads_of_eq_ok (depth : Nat) :
    (∀ {level ts e rest}, expression depth level ts = .ok (e, rest) → Reads level ts e rest) ∧
      (∀ {ts e rest}, operand depth ts = .ok (e, rest) → ReadsOperand ts e rest) ∧
      (∀ {level left ts e rest}, operators depth level left ts = .ok (e, rest) →
        Extends level left ts e rest) ∧
      ∀ {ts es rest}, arguments depth ts = .ok (es, rest) → ReadsArguments ts es rest := by
  -- All four readers call each other one level deeper, so that they are followed together.
  induction depth with
  | zero => exact ⟨nofun, nofun, nofun, nofun⟩
  | succ depth ih =>
    obtain ⟨expressionIh, operandIh, operatorsIh, argumentsIh⟩ := ih
    refine ⟨?_, readsOperand_step expressionIh argumentsIh, ?_, ?_⟩
    · intro level ts e rest h
      obtain ⟨⟨left, next⟩, first, h⟩ := exists_of_bind_eq_ok h
      exact .intro (operandIh first) (operatorsIh h)
    · intro level left ts e rest h
      rw [operators.eq_def] at h
      dsimp only at h
      split at h
      next op c tail =>
        split at h
        next loose =>
          cases h
          refine .stop ?_
          rintro op column rest ⟨⟩
          exact loose
        next tight =>
          obtain ⟨⟨right, next⟩, read, h⟩ := exists_of_bind_eq_ok h
          exact .binary (Nat.lt_of_not_le tight) (expressionIh read) (operatorsIh h)
      next none =>
        cases h
        exact .stop fun op column rest same => (none op column rest same).elim
    · intro ts es rest h
      obtain ⟨⟨first, next⟩, read, h⟩ := exists_of_bind_eq_ok h
      dsimp only at h
      split at h
      next =>
        cases h
        exact .last (expressionIh read)
      next =>
        obtain ⟨⟨others, after⟩, more, h⟩ := exists_of_bind_eq_ok h
        cases h
        exact .more (expressionIh read) (argumentsIh more)
      next => cases h

/-! ## The readers accept no less -/

mutual

/-- An expression takes up at least one lexeme. -/
theorem Reads.length_lt {level : Nat} {ts rest : List Lexeme} {e : Expr} :
    Reads level ts e rest → rest.length < ts.length
  | .intro first more => Nat.lt_of_le_of_lt more.length_le first.length_lt

/-- An operand takes up at least one lexeme. -/
theorem ReadsOperand.length_lt {ts rest : List Lexeme} {e : Expr} :
    ReadsOperand ts e rest → rest.length < ts.length
  | .group inner => by
    have := inner.length_lt
    simp only [List.length_cons] at this ⊢
    omega
  | .call arguments => by
    have := arguments.length_lt
    simp only [List.length_cons]
    omega
  | .scalar _ | .number _ | .string => by simp
  | .userCall named arguments => by
    have := arguments.length_lt
    have := length_le_of_functionName named
    simp only [List.length_cons] at this ⊢
    omega
  | .user named _ => Nat.lt_succ_of_le (length_le_of_functionName named)
  | .negate inner | .plus inner | .not inner => Nat.lt_succ_of_lt inner.length_lt

/-- What is left after some operators is no longer than before. -/
theorem Extends.length_le {level : Nat} {ts rest : List Lexeme} {left e : Expr} :
    Extends level left ts e rest → rest.length ≤ ts.length
  | .stop _ => Nat.le_refl _
  | .binary _ operand more => by
    have := operand.length_lt
    have := more.length_le
    simp only [List.length_cons]
    omega

/-- Arguments take up at least one lexeme. -/
theorem ReadsArguments.length_lt {ts rest : List Lexeme} {es : List Expr} :
    ReadsArguments ts es rest → rest.length < ts.length
  | .last only => Nat.lt_of_succ_lt only.length_lt
  | .more first others => Nat.lt_trans others.length_lt (Nat.lt_of_succ_lt first.length_lt)

end

/-- A closing parenthesis that stands first is found. -/
theorem expect_rightParen (detail : String) (column : Span) (rest : List Lexeme) :
    expect .rightParen detail (⟨.rightParen, column⟩ :: rest) = .ok rest := by
  rw [expect, if_pos rfl]

-- Each token takes at most two nested calls: one for an expression and one for its operand.
mutual

/-- An expression that is spelled is read, if the depth allows for two levels for each of its
lexemes. -/
theorem Reads.expression_eq {level : Nat} {ts rest : List Lexeme} {e : Expr} :
    Reads level ts e rest → ∀ depth, 2 * ts.length ≤ depth + 2 * rest.length →
      expression depth level ts = .ok (e, rest)
  | .intro first more, depth, enough => by
    have := first.length_lt
    have := more.length_le
    cases depth with
    | zero => omega
    | succ depth =>
      have read := first.operand_eq depth (by omega)
      have extended := more.operators_eq depth (by omega)
      rw [expression, read]
      exact extended

/-- An operand that is spelled is read, if the depth allows for two levels for each of its
lexemes. -/
theorem ReadsOperand.operand_eq {ts rest : List Lexeme} {e : Expr} :
    ReadsOperand ts e rest → ∀ depth, 2 * ts.length ≤ depth + 1 + 2 * rest.length →
      operand depth ts = .ok (e, rest)
  | h, 0, enough => by
    -- An operand is not empty, and the depth is zero only for empty ones.
    have := h.length_lt
    omega
  | .group inner, depth + 1, enough => by
    have read := inner.expression_eq depth (by simp at enough ⊢; omega)
    rw [operand, bind_of_eq_ok read]
    exact bind_of_eq_ok (expect_rightParen ..)
  | .call arguments, depth + 1, enough => by
    have read := arguments.arguments_eq depth (by simp at enough; omega)
    rw [operand, bind_of_eq_ok read]
    rfl
  | .scalar unopened, depth + 1, _ => operand.eq_4 _ _ _ _ unopened
  | .userCall named arguments, depth + 1, enough => by
    have shorter := length_le_of_functionName named
    have read := arguments.arguments_eq depth (by simp at enough shorter; omega)
    rw [operand, named]
    exact bind_of_eq_ok read
  | .user named unopened, depth + 1, _ => by
    rw [operand, named]
    dsimp only
    split
    next => exact absurd rfl (unopened _ _)
    next => rfl
  | .number value, depth + 1, _ => by
    rw [operand, value]
    rfl
  | .string, depth + 1, _ => rfl
  | .negate inner, depth + 1, enough => by
    have read := inner.expression_eq depth (by simp at enough; omega)
    rw [operand, bind_of_eq_ok read]
    rfl
  | .plus inner, depth + 1, enough => by
    have read := inner.expression_eq depth (by simp at enough; omega)
    rw [operand, read]
  | .not inner, depth + 1, enough => by
    have read := inner.expression_eq depth (by simp at enough; omega)
    rw [operand, bind_of_eq_ok read]
    rfl

/-- Operators that are spelled are read, if the depth allows for two levels for each of their
lexemes. -/
theorem Extends.operators_eq {level : Nat} {ts rest : List Lexeme} {left e : Expr} :
    Extends level left ts e rest → ∀ depth, 2 * ts.length + 1 ≤ depth + 2 * rest.length →
      operators depth level left ts = .ok (e, rest)
  | h, 0, enough => by
    have := h.length_le
    omega
  | .stop loose, depth + 1, enough => by
    rw [operators.eq_def]
    dsimp only
    split
    next op c tail => rw [if_pos (loose op c tail rfl)]; rfl
    next => rfl
  | .binary tight operand more, depth + 1, enough => by
    have shorter := operand.length_lt
    have := more.length_le
    simp only [List.length_cons] at enough
    have read := operand.expression_eq depth (by omega)
    have extended := more.operators_eq depth (by omega)
    rw [operators, if_neg (Nat.not_le_of_lt tight), read]
    exact extended

/-- Arguments that are spelled are read, if the depth allows for two levels for each of their
lexemes. -/
theorem ReadsArguments.arguments_eq {ts rest : List Lexeme} {es : List Expr} :
    ReadsArguments ts es rest → ∀ depth, 2 * ts.length ≤ depth + 1 + 2 * rest.length →
      arguments depth ts = .ok (es, rest)
  | h, 0, enough => by
    have := h.length_lt
    omega
  | .last only, depth + 1, enough => by
    have read := only.expression_eq depth (by simp; omega)
    rw [arguments, read]
    rfl
  | .more first others, depth + 1, enough => by
    have := others.length_lt
    have := first.length_lt
    simp only [List.length_cons] at this
    have read := first.expression_eq depth (by simp; omega)
    have more := others.arguments_eq depth (by omega)
    rw [arguments, bind_of_eq_ok read]
    exact bind_of_eq_ok more

end

/-- The reader of expressions accepts what lexemes spell and nothing else. -/
theorem read_eq_ok_iff : read ts = .ok (e, rest) ↔ Reads 0 ts e rest := by
  constructor
  · exact (reads_of_eq_ok _).1
  · intro reads
    exact reads.expression_eq _ (by rw [depthFor]; omega)

/-- The reader of arguments accepts what lexemes spell and nothing else. -/
theorem readArguments_eq_ok_iff :
    readArguments ts = .ok (es, rest) ↔ ReadsArguments ts es rest := by
  constructor
  · exact (reads_of_eq_ok _).2.2.2
  · intro reads
    exact reads.arguments_eq _ (by rw [depthFor]; omega)

end NumberedBasic.Expr
