import NumberedBasic.Proofs.SteadyStatements

/-!
# Readers are given depth enough

The readers that call each other are given a number that bounds the depth of their calls, and would
have to give up if it were used up. This never happens, neither on lines that are accepted nor on
lines that are refused: an expression takes at most two nested calls for each lexeme
(`Expr.unspent_of_depth`), a list one step for each lexeme, and the statements of a line one call
for each lexeme. So whatever is refused is refused by a rule of the language
(`Statement.unspent_readLine`).
-/

set_option autoImplicit false

namespace NumberedBasic

/-- A reading that is not given up for want of depth. -/
def Unspent {α : Type} (x : Except Refusal α) : Prop :=
  ∀ e, x = .error e → e.raised.code ≠ .internalError

namespace Unspent

variable {α β : Type} {x : Except Refusal α} {f : α → Except Refusal β}

/-- A reading that succeeds is not given up. -/
theorem ok (a : α) : Unspent (.ok a : Except Refusal α) := nofun

/-- A rule of the language that is broken is no want of depth. -/
theorem refuse (ts : List Lexeme) (detail : String) :
    Unspent (Lexeme.refuse ts detail : Except Refusal α) := by
  rintro e ⟨⟩
  exact nofun

/-- The second part of a reading matters only after the first part has succeeded. -/
theorem bind (first : Unspent x) (next : ∀ a, x = .ok a → Unspent (f a)) :
    Unspent (x >>= f) := by
  cases x with
  | error e =>
    rintro e' ⟨⟩
    exact first e rfl
  | ok a => exact next a rfl

/-- What is made of a reading afterwards does not matter. -/
theorem map (first : Unspent x) (g : α → β) : Unspent (x >>= fun a => pure (g a)) :=
  first.bind fun a _ => .ok (g a)

/-- A token that is expected is there or not. -/
theorem expect (token : Token) (detail : String) (ts : List Lexeme) :
    Unspent (Lexeme.expect token detail ts) := by
  unfold Lexeme.expect
  split
  · split
    · exact .ok _
    · exact .refuse _ _
  · exact .refuse _ _

/-- A token is a line number or not. -/
theorem lineNumber (ts : List Lexeme) : Unspent (Lexeme.lineNumber ts) := by
  unfold Lexeme.lineNumber
  split
  · exact .refuse _ _
  · next t rest =>
    unfold Token.lineNumber
    split
    · exact .ok _
    · next fault failed =>
      rintro e ⟨⟩
      split at failed
      · split at failed
        · split at failed <;> cases failed
          exact nofun
        · cases failed
          exact nofun
      · cases failed
        exact nofun

/-- A token is a name or not. -/
theorem name (ts : List Lexeme) : Unspent (Lexeme.name ts) := by
  unfold Lexeme.name
  split
  · exact .ok _
  · exact .refuse _ _

end Unspent

/-! ## Expressions -/

namespace Expr

section Step

variable {depth : Nat}
  (expression : ∀ level ts, 2 * ts.length + 2 ≤ depth → Unspent (expression depth level ts))
  (arguments : ∀ ts, 2 * ts.length + 3 ≤ depth → Unspent (arguments depth ts))

include expression arguments

/-- An operand takes one lexeme at least before it reads an expression, and two before it reads
arguments. -/
theorem unspent_operand_step {ts : List Lexeme} (enough : 2 * ts.length + 1 ≤ depth + 1) :
    Unspent (operand (depth + 1) ts) := by
  rw [operand.eq_def]
  dsimp only
  split
  -- The parenthesis has been taken off, which pays for one level of the operand and one of the
  -- expression in it.
  next column rest =>
    rw [List.length_cons] at enough
    refine (expression 0 rest (by omega)).bind fun r _ => ?_
    exact (Unspent.expect _ _ _).map _
  next i column paren rest =>
    rw [List.length_cons, List.length_cons] at enough
    exact (arguments rest (by omega)).map _
  next => exact .ok _
  next column rest =>
    rw [List.length_cons] at enough
    cases named : Lexeme.functionName rest with
    | mk i next =>
      have shorter := length_le_of_functionName named
      dsimp only
      split
      next paren tail =>
        rw [List.length_cons] at shorter
        exact (arguments tail (by omega)).map _
      next => exact .ok _
  next =>
    split
    · exact .ok _
    · exact .refuse _ _
  next => exact .ok _
  next column rest =>
    rw [List.length_cons] at enough
    exact (expression unaryLevel rest (by omega)).map _
  next column rest =>
    rw [List.length_cons] at enough
    exact expression unaryLevel rest (by omega)
  next column rest =>
    rw [List.length_cons] at enough
    exact (expression unaryLevel rest (by omega)).map _
  next => exact .refuse _ _

end Step

/-- Two nested calls for each lexeme are all that expressions take. -/
theorem unspent_of_depth (depth : Nat) :
    (∀ level ts, 2 * ts.length + 2 ≤ depth → Unspent (expression depth level ts)) ∧
      (∀ ts, 2 * ts.length + 1 ≤ depth → Unspent (operand depth ts)) ∧
      (∀ level left ts, 2 * ts.length + 1 ≤ depth → Unspent (operators depth level left ts)) ∧
      ∀ ts, 2 * ts.length + 3 ≤ depth → Unspent (arguments depth ts) := by
  induction depth with
  | zero => exact ⟨nofun, nofun, nofun, nofun⟩
  | succ depth ih =>
    obtain ⟨expressionIh, operandIh, operatorsIh, argumentsIh⟩ := ih
    refine ⟨fun level ts enough => ?_, fun ts => unspent_operand_step expressionIh argumentsIh,
      fun level left ts enough => ?_, fun ts enough => ?_⟩
    · refine (operandIh ts (by omega)).bind fun r read => ?_
      have shorter := ((reads_of_eq_ok depth).2.1 read).length_lt
      exact operatorsIh level r.1 r.2 (by omega)
    · rw [operators.eq_def]
      dsimp only
      split
      next op column rest =>
        rw [List.length_cons] at enough
        split
        · exact .ok _
        · refine (expressionIh op.level rest (by omega)).bind fun r read => ?_
          have shorter := ((reads_of_eq_ok depth).1 read).length_lt
          exact operatorsIh level _ r.2 (by omega)
      next => exact .ok _
    · refine (expressionIh 0 ts (by omega)).bind ?_
      rintro ⟨first, rest⟩ read
      have shorter := ((reads_of_eq_ok depth).1 read).length_lt
      dsimp only
      split
      next => exact .ok _
      next column tail =>
        rw [List.length_cons] at shorter
        exact (argumentsIh tail (by omega)).map _
      next => exact .refuse _ _

/-- An expression is never given up. -/
theorem unspent_read (ts : List Lexeme) : Unspent (read ts) :=
  (unspent_of_depth (depthFor ts)).1 0 ts (by unfold depthFor; omega)

/-- Arguments are never given up. -/
theorem unspent_readArguments (ts : List Lexeme) : Unspent (readArguments ts) :=
  (unspent_of_depth (depthFor ts)).2.2.2 ts (by unfold depthFor; omega)

end Expr

/-! ## Commands -/

namespace Target

/-- The name of a variable is read without running out of depth. -/
theorem unspent_readName (ts : List Lexeme) : Unspent (readName ts) := by
  refine (Unspent.name ts).bind ?_
  rintro ⟨⟨column, i⟩, rest⟩ -
  dsimp only
  split
  · exact .refuse _ _
  · exact .ok _

/-- A target is read without running out of depth. -/
theorem unspent_read (ts : List Lexeme) : Unspent (read ts) := by
  refine (unspent_readName ts).bind ?_
  rintro ⟨⟨column, i⟩, rest⟩ -
  dsimp only
  split
  · exact (Expr.unspent_readArguments _).map _
  · exact .ok _

/-- There are no more targets than lexemes. -/
theorem unspent_readList {count : Nat} {ts : List Lexeme} (enough : ts.length < count) :
    Unspent (readList count ts) := by
  induction count generalizing ts with
  | zero => exact absurd enough (Nat.not_lt_zero _)
  | succ count ih =>
    refine (unspent_read ts).bind ?_
    rintro ⟨first, rest⟩ read
    have shorter := (steady_read.apply read).1
    dsimp only
    split
    next column tail =>
      rw [List.length_cons] at shorter
      exact (ih (by omega)).map _
    next => exact .ok _

end Target

namespace Command

/-- A list of line numbers is read without running out of depth. -/
theorem unspent_readLines (ts : List Lexeme) : Unspent (readLines ts) := by
  fun_induction readLines ts with
  | case1 t column rest ih => exact (Unspent.lineNumber _).bind fun r _ => ih.map _
  | case2 ts => exact (Unspent.lineNumber _).map _

/-- A list of parameters is read without running out of depth. -/
theorem unspent_readParameters (ts : List Lexeme) : Unspent (readParameters ts) := by
  fun_induction readParameters ts with
  | case1 => exact .ok _
  | case2 i column comma rest ih => exact ih.map _
  | case3 => exact .refuse _ _
  | case4 => exact .refuse _ _

/-- A `DEF` is read without running out of depth. -/
theorem unspent_readDefine (column : Span) (ts : List Lexeme) :
    Unspent (readDefine column ts) := by
  have body : ∀ i (r : WithRest (List Ident)), Unspent
      (Lexeme.expect (.operator (.binary .equal)) "EXPECTED =" r.2 >>= fun rest =>
        Expr.read rest >>= fun body => pure (define column i r.1 body.1, body.2)) := fun i r =>
    (Unspent.expect _ _ _).bind fun rest _ => (Expr.unspent_read rest).map _
  refine (Unspent.expect _ _ _).bind fun rest _ => ?_
  dsimp only
  split
  · exact (unspent_readParameters _).bind fun r _ => body _ r
  · exact (Unspent.ok _).bind fun r _ => body _ r

/-- A `DIM` is read without running out of depth. -/
theorem unspent_readDimension (column : Span) (ts : List Lexeme) :
    Unspent (readDimension column ts) := by
  refine (Target.unspent_readList (Nat.lt_succ_self _)).bind ?_
  rintro ⟨targets, rest⟩ -
  dsimp only
  split
  · exact .ok _
  · exact .refuse _ _

/-- A `FOR` is read without running out of depth. -/
theorem unspent_readLoop (column : Span) (ts : List Lexeme) : Unspent (readLoop column ts) := by
  refine (Target.unspent_readName ts).bind ?_
  rintro ⟨⟨place, i⟩, rest⟩ -
  dsimp only
  split
  · exact .refuse _ _
  · refine (Unspent.expect _ _ _).bind fun rest _ => (Expr.unspent_read rest).bind ?_
    rintro ⟨first, rest⟩ -
    refine (Unspent.expect _ _ _).bind fun rest _ => (Expr.unspent_read rest).bind ?_
    rintro ⟨last, rest⟩ -
    dsimp only
    split
    · exact (Expr.unspent_read _).map _
    · exact .ok _

/-- The prompt of an `INPUT` is read without running out of depth. -/
theorem unspent_readPrompt (ts : List Lexeme) : Unspent (readPrompt ts) := by
  unfold readPrompt
  split
  · exact .ok _
  · exact .ok _
  · exact .refuse _ _
  · exact .ok _

/-- The variables of a `NEXT` are read without running out of depth. -/
theorem unspent_readNextNames (ts : List Lexeme) : Unspent (readNextNames ts) := by
  fun_induction readNextNames ts with
  | case1 i column comma rest ih => exact ih.map _
  | case2 => exact .ok _
  | case3 => exact .refuse _ _

/-- There are no more items than lexemes. -/
theorem unspent_readItems {count : Nat} {ts : List Lexeme} (enough : ts.length < count) :
    Unspent (readItems count ts) := by
  induction count generalizing ts with
  | zero => exact absurd enough (Nat.not_lt_zero _)
  | succ count ih =>
    rw [readItems]
    split
    · exact .ok _
    · split
      next => exact (ih (Nat.lt_of_succ_lt_succ enough)).map _
      next => exact (ih (Nat.lt_of_succ_lt_succ enough)).map _
      next =>
        refine (Expr.unspent_read ts).bind fun r read => ?_
        have shorter := (Expr.read_eq_ok_iff.mp read).length_lt
        exact (ih (by omega)).map _

/-- An assignment is read without running out of depth. -/
theorem unspent_readAssign (column : Span) (ts : List Lexeme) :
    Unspent (readAssign column ts) :=
  (Target.unspent_read ts).bind fun _ _ => (Unspent.expect _ _ _).bind fun rest _ =>
    (Expr.unspent_read rest).map _

/-- An `ON` is read without running out of depth. -/
theorem unspent_readOn (column : Span) (ts : List Lexeme) : Unspent (readOn column ts) := by
  refine (Expr.unspent_read ts).bind ?_
  rintro ⟨selector, rest⟩ -
  dsimp only
  split
  · exact (unspent_readLines _).map _
  · exact (unspent_readLines _).map _
  · exact (unspent_readLines _).map _
  · exact (unspent_readLines _).map _
  · exact .refuse _ _

/-- A `RESTORE` is read without running out of depth. -/
theorem unspent_readRestore (column : Span) (ts : List Lexeme) :
    Unspent (readRestore column ts) := by
  unfold readRestore
  split
  · exact (Unspent.lineNumber _).map _
  · exact (Unspent.lineNumber _).map _
  · exact .ok _

/-- Every statement that a word opens, an `IF` apart, is read without running out of depth. -/
theorem unspent_readSingle (whole : List Lexeme) (word : Word) (column : Span)
    (ts : List Lexeme) : Unspent (readSingle whole word column ts) := by
  cases word with
  | CLEAR | DATA | END | RETURN | STOP => exact .ok _
  | DEF => exact unspent_readDefine column ts
  | DIM => exact unspent_readDimension column ts
  | FOR => exact unspent_readLoop column ts
  | GOSUB | GO_SUB | GOTO | GO_TO => exact (Unspent.lineNumber ts).map _
  | INPUT =>
    exact (unspent_readPrompt ts).bind fun r _ =>
      (Target.unspent_readList (Nat.lt_succ_self _)).map _
  | LET => exact unspent_readAssign column ts
  | ON => exact unspent_readOn column ts
  | PRINT | QUESTION => exact (unspent_readItems (Nat.lt_succ_self _)).map _
  | READ => exact (Target.unspent_readList (Nat.lt_succ_self _)).map _
  | REM | APOSTROPHE =>
    unfold readSingle
    dsimp only
    split <;> exact .ok _
  | RESTORE => exact unspent_readRestore column ts
  | IF | NEXT | ELSE | FN | STEP | THEN | TO => exact .refuse _ _

/-- A statement is never given up. -/
theorem unspent_readStatement (ts : List Lexeme) : Unspent (readStatement ts) := by
  unfold readStatement
  split
  · exact (unspent_readAssign _ _).map _
  · split
    · exact unspent_readNextNames _
    · exact .ok _
  · exact (unspent_readSingle _ _ _ _).map _
  · exact .refuse _ _

end Command

/-! ## Lines -/

namespace Block

/-- Reading stops here: at the end of the line, or at an `ELSE`. -/
def Ends : List Lexeme → Prop
  | [] => True
  | ⟨.endOfLine, _⟩ :: _ => True
  | ⟨.word .ELSE, _⟩ :: _ => True
  | _ => False

/-- A statement may end where reading stops. -/
theorem Ends.atEnd {ts : List Lexeme} (ends : Ends ts) : Lexeme.atEnd ts = true := by
  unfold Ends at ends
  split at ends
  · rfl
  · rfl
  · rfl
  · exact ends.elim

end Block

namespace Statement

open Block (Ends)

/-- A reader of branches that stops where reading stops. -/
def Stops (extend : Extender) : Prop :=
  ∀ {ts rest : List Lexeme} {code code' : Array Statement},
    extend ts code = .ok (code', rest) → Ends rest

section Stops

variable {extend : Extender} {ts rest : List Lexeme} {code code' : Array Statement}

/-- A branch is read up to where reading stops, if its statements are. -/
theorem Stops.readBranch (stops : Stops extend) : Stops (readBranch extend) := by
  intro ts rest code code' done
  unfold Statement.readBranch at done
  split at done
  · obtain ⟨r, -, done⟩ := exists_of_bind_eq_ok done
    exact stops done
  · exact stops done

/-- The outcome of an `IF` is read up to where reading stops, if its statements are. -/
theorem Stops.readOutcome (stops : Stops extend) : Stops (readOutcome extend) := by
  intro ts rest code code' done
  unfold Statement.readOutcome at done
  split at done
  · exact stops.readBranch done
  · obtain ⟨r, -, done⟩ := exists_of_bind_eq_ok done
    exact stops done
  · obtain ⟨r, -, done⟩ := exists_of_bind_eq_ok done
    exact stops done
  · cases done

/-- The branches of an `IF` take the rest of the line or go on to an `ELSE` further out, so that a
statement may end behind it. -/
theorem Stops.readIf (stops : Stops extend) (column : Span) : Stops (readIf extend column) := by
  intro ts rest code code' done
  obtain ⟨⟨predicate, next⟩, -, done⟩ := exists_of_bind_eq_ok done
  obtain ⟨⟨taken, left⟩, outcome, done⟩ := exists_of_bind_eq_ok done
  have ends := stops.readOutcome outcome
  dsimp only at done
  split at done
  · obtain ⟨⟨others, last⟩, branch, done⟩ := exists_of_bind_eq_ok done
    cases done
    exact stops.readBranch branch
  · cases done
    exact ends

/-- Statements are read up to where reading stops. -/
theorem stops_readTo (depth : Nat) : Stops (readTo depth) := by
  induction depth with
  | zero => nofun
  | succ depth ih =>
    intro ts rest code code' done
    unfold readTo at done
    split at done
    · cases done
      trivial
    · cases done
      trivial
    · cases done
      trivial
    · exact ih done
    · obtain ⟨r, -, done⟩ := exists_of_bind_eq_ok done
      exact ih done
    · obtain ⟨r, -, done⟩ := exists_of_bind_eq_ok done
      dsimp only at done
      split at done
      · exact ih done
      · cases done

end Stops

/-- A reader of branches that is not given up on fewer than `n` lexemes. -/
def UnspentBelow (n : Nat) (extend : Extender) : Prop :=
  ∀ ts code, ts.length < n → Unspent (extend ts code)

section Unspent

variable {extend : Extender} {n : Nat}

/-- A jump takes its line number before what follows it is read. -/
theorem UnspentBelow.jump (unspent : UnspentBelow n extend) {ts : List Lexeme}
    (short : ts.length < n) (column : Span) (code : Array Statement) :
    Unspent (Lexeme.lineNumber ts >>= fun r =>
      extend r.2 (code.push (.run (.goto column r.1)))) := by
  refine (Unspent.lineNumber ts).bind fun r number => ?_
  have shorter := (Lexeme.steady_lineNumber.apply number).1
  exact unspent _ _ (by omega)

/-- A branch does not run out of depth where its statements do not. -/
theorem UnspentBelow.readBranch (unspent : UnspentBelow n extend) :
    UnspentBelow n (readBranch extend) := by
  intro ts code short
  unfold Statement.readBranch
  split
  · exact unspent.jump short _ code
  · exact unspent _ _ short

/-- The outcome of an `IF` does not run out of depth where its statements do not. -/
theorem UnspentBelow.readOutcome (unspent : UnspentBelow n extend) :
    UnspentBelow n (readOutcome extend) := by
  intro ts code short
  unfold Statement.readOutcome
  split
  · exact unspent.readBranch _ _ (Nat.lt_of_succ_lt short)
  · exact unspent.jump (Nat.lt_of_succ_lt short) _ code
  · exact unspent.jump (Nat.lt_of_succ_lt short) _ code
  · exact .refuse _ _

/-- An `IF` does not run out of depth where the statements of its outcomes do not, because both are
shorter than all of it. -/
theorem UnspentBelow.readIf (unspent : UnspentBelow n extend) (steady : SteadyExtender extend)
    (column : Span) : UnspentBelow n (readIf extend column) := by
  intro ts code short
  refine (Expr.unspent_read ts).bind ?_
  rintro ⟨predicate, next⟩ read
  have nextShorter := (Expr.steady_read.apply read).1
  refine (unspent.readOutcome _ _ (by omega)).bind ?_
  rintro ⟨taken, rest⟩ outcome
  have restShorter := ((steady.readOutcome _).apply outcome).1
  dsimp only
  split
  next column tail =>
    rw [List.length_cons] at restShorter
    exact (unspent.readBranch _ _ (by omega)).map _
  next => exact .ok _

end Unspent

/-- Each call reads one lexeme at least before the next one. -/
theorem unspentBelow_readTo (depth : Nat) : UnspentBelow depth (readTo depth) := by
  induction depth with
  | zero => exact fun ts code short => absurd short (Nat.not_lt_zero _)
  | succ depth ih =>
    intro ts code short
    unfold readTo
    split
    · exact .ok _
    · exact .ok _
    · exact .ok _
    · exact ih _ _ (Nat.lt_of_succ_lt_succ short)
    · refine (ih.readIf (steady_readTo depth) _ _ _ (Nat.lt_of_succ_lt_succ short)).bind ?_
      rintro ⟨taken, rest⟩ branch
      have shorter := (((steady_readTo depth).readIf _ _).apply branch).1
      rw [List.length_cons] at short
      exact ih _ _ (by omega)
    · refine (Command.unspent_readStatement _).bind ?_
      rintro ⟨commands, rest⟩ read
      have shorter := Command.length_lt_of_readStatement read
      dsimp only
      split
      · exact ih _ _ (by omega)
      · exact .refuse _ _

/-- A line is never given up for want of depth, whether it is accepted or refused. -/
theorem unspent_readLine (ts : List Lexeme) : Unspent (readLine ts) := by
  refine (unspentBelow_readTo _ ts #[] (Nat.lt_succ_self _)).bind ?_
  rintro ⟨code, rest⟩ -
  dsimp only
  split
  · exact .ok _
  · exact .ok _
  · exact .refuse _ _

end Statement

end NumberedBasic
