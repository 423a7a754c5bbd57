import NumberedBasic.Proofs.SteadyReading

/-!
# Statements do not depend on how their line ends

The rules for steady readers, applied to one reader of statements after another. The results are
`Statement.spaced_of_readLine`, that no relation follows another in a line that is accepted, and
`Statement.readLine_of_alike`, that what is read of it does not depend on how it ends. The readers
that count what they read are given one more than the number of lexemes; that this is as good as any
larger count is shown beside each of them.
-/

set_option autoImplicit false

namespace NumberedBasic

open Lexeme (refuse expect functionName Alike Spaced atRelation fixes)
open SteadyTo (Misses Plain plain_contains)

/-- After `=` comes an expression, which does not start with a relation. -/
theorem SteadyTo.equals {α : Type} {n : Nat} {detail : String}
    {q : WithRest Expr → Except Refusal (WithRest α)}
    (next : ∀ e, SteadyTo n fun rest => q (e, rest)) :
    SteadyTo n fun ts => Lexeme.expect (.operator (.binary .equal)) detail ts >>= fun ts =>
      Expr.read ts >>= q := by
  refine .expect rfl (.bind (Expr.steady_read n) next) fun _ ts a rest done => ?_
  obtain ⟨⟨e, after⟩, read, -⟩ := exists_of_bind_eq_ok done
  exact (Expr.read_eq_ok_iff.mp read).atRelation_eq

namespace Target

/-- A name that is there is read steadily. -/
theorem steady_readName_name (i : Ident) (column : Span) :
    Steady fun ts => readName (⟨.name i, column⟩ :: ts) := by
  intro m
  show SteadyTo m fun ts => if Builtin.isReserved i.name = true then _ else _
  exact .ite (.of_error fun _ => ⟨_, rfl⟩) (.pure _)

/-- A target whose name is there is read steadily. -/
theorem steady_read_name (i : Ident) (column : Span) :
    Steady fun ts => read (⟨.name i, column⟩ :: ts) := by
  intro m
  refine .bind (steady_readName_name i column m) fun (column, i) => ?_
  dsimp only
  refine .head (p := fun ts => pure (.scalar column i, ts)) [Token.leftParen].contains
    (plain_contains rfl) ?_ ?_ (.pure _)
  · rintro ⟨t, d⟩ found k _
    obtain rfl : t = .leftParen := by simpa using found
    exact .map (Expr.steady_readArguments k) fun es => Target.element ⟨column, i, es⟩
  · intro ts missed
    split
    next => cases missed _ _ rfl
    next => rfl

/-- Without a name in front, none is read. -/
theorem exists_error_of_misses {ts : List Lexeme} (missed : Misses Token.isName ts) :
    ∃ e, readName ts = .error e := by
  have refused : Lexeme.name ts = refuse ts "EXPECTED IDENTIFIER" := by
    unfold Lexeme.name
    split
    next => cases missed _ _ rfl
    next => rfl
  rw [readName, refused]
  exact ⟨_, rfl⟩

/-- Targets are read steadily. -/
theorem steady_read : Steady read := by
  intro m
  refine .take Token.isName plain_isName ?_ fun ts missed => ?_
  · rintro ⟨t, column⟩ found k _
    cases t with
    | name i => exact steady_read_name i column k
    | _ => cases found
  · obtain ⟨e, failed⟩ := exists_error_of_misses missed
    rw [read, failed]
    exact ⟨e, rfl⟩

/-- So many targets are read steadily. -/
theorem steady_readList_count (count : Nat) : Steady (readList count) := by
  induction count with
  | zero => exact fun n => .of_error fun ts => ⟨_, rfl⟩
  | succ count ih =>
    intro n
    refine .bind (steady_read n) fun first => ?_
    dsimp only
    refine .head (p := fun ts => pure ([first], ts)) [Token.comma].contains (plain_contains rfl)
      ?_ ?_ (.pure _)
    · rintro ⟨t, d⟩ found k _
      obtain rfl : t = .comma := by simpa using found
      exact .map (ih k) (first :: ·)
    · intro ts missed
      split
      next => cases missed _ _ rfl
      next => rfl

/-- A count that exceeds the number of lexemes is as good as any other that suffices. -/
theorem readList_eq_ok {count : Nat} {ts rest : List Lexeme} {targets : List Target}
    (done : readList count ts = .ok (targets, rest)) {count' : Nat} (enough : ts.length < count') :
    readList count' ts = .ok (targets, rest) := by
  induction count generalizing ts rest targets count' with
  | zero => cases done
  | succ count ih =>
    cases count' with
    | zero => omega
    | succ count' =>
      obtain ⟨⟨first, next⟩, read, done⟩ := exists_of_bind_eq_ok done
      have shorter := (steady_read.apply read).1
      rw [readList, bind_of_eq_ok read]
      dsimp only at done ⊢
      split at done
      next after =>
        obtain ⟨⟨others, last⟩, more, done⟩ := exists_of_bind_eq_ok done
        simp only [List.length_cons] at shorter
        rw [bind_of_eq_ok (ih more (by omega))]
        exact done
      next => exact done

/-- Lists of targets are read steadily. -/
theorem steady_readList : Steady fun ts => readList (ts.length + 1) ts := by
  intro n ts targets rest short done
  obtain ⟨shorter, spaced, alike⟩ := steady_readList_count _ n ts targets rest short done
  refine ⟨shorter, spaced, fun us h => ?_⟩
  obtain ⟨vs, read, left⟩ := alike us h
  exact ⟨vs, readList_eq_ok read (Nat.lt_succ_self _), left⟩

end Target

namespace Command

/-- Lists of parameters are read steadily. -/
theorem steady_readParameters : Steady readParameters := by
  intro n
  induction n using Nat.strongRecOn with
  | ind n ih =>
    refine .take Token.isName plain_isName ?_ fun ts missed => ?_
    · rintro ⟨t, column⟩ found m less
      cases t with
      | name name =>
        refine .take [Token.rightParen, Token.comma].contains (plain_contains rfl) ?_
          fun ts missed => ?_
        · rintro ⟨t, d⟩ found k less'
          obtain rfl | rfl : t = .rightParen ∨ t = .comma := by simpa using found
          · exact .pure [name]
          · exact .map (ih k (Nat.lt_trans less' less)) (name :: ·)
        · unfold readParameters
          split
          next same =>
            cases same
            cases missed _ _ rfl
          next same =>
            cases same
            cases missed _ _ rfl
          next => exact ⟨_, rfl⟩
          next => exact ⟨_, rfl⟩
      | _ => cases found
    · unfold readParameters
      split
      next => cases missed _ _ rfl
      next => cases missed _ _ rfl
      next => cases missed _ _ rfl
      next => exact ⟨_, rfl⟩

/-- Reads a function definition after its parameters. -/
def readBody (column : Span) (i : Ident) (parameters : List Ident) (ts : List Lexeme) :
    Except Refusal (WithRest Command) := do
  let rest ← expect (.operator (.binary .equal)) "EXPECTED =" ts
  let (body, rest) ← Expr.read rest
  pure (.define column i parameters body, rest)

/-- Reads a function definition after its name. -/
def readSignature (column : Span) (i : Ident) (ts : List Lexeme) :
    Except Refusal (WithRest Command) := do
  let (parameters, rest) ← match ts with
    | ⟨.leftParen, _⟩ :: rest => readParameters rest
    | _ => pure ([], ts)
  readBody column i parameters rest

/-- The body of a function is read steadily. -/
theorem steady_readBody (column : Span) (i : Ident) (parameters : List Ident) :
    Steady (readBody column i parameters) :=
  fun _ => .equals fun body => .pure (define column i parameters body)

/-- The parameters and the body of a function are read steadily. -/
theorem steady_readSignature (column : Span) (i : Ident) :
    Steady (readSignature column i) := by
  intro n
  refine .head [Token.leftParen].contains (plain_contains rfl) ?_ ?_
    (steady_readBody column i [] n)
  · rintro ⟨t, d⟩ found k _
    obtain rfl : t = .leftParen := by simpa using found
    exact .bind (steady_readParameters k) fun parameters => steady_readBody column i parameters k
  · intro ts missed
    unfold readSignature
    split
    next => cases missed _ _ rfl
    next => rfl

/-- A `DEF` is read steadily. -/
theorem steady_readDefine (column : Span) : Steady (readDefine column) := by
  intro n
  refine .expect rfl ?_ nofun
  exact .bind_ok (Lexeme.steady_functionName n) fun i => steady_readSignature column i n

/-- A `DIM` is read steadily. -/
theorem steady_readDimension (column : Span) : Steady (readDimension column) := by
  intro n
  refine .bind (Target.steady_readList n) fun targets => ?_
  dsimp only
  cases targets.mapM Target.element? with
  | none => exact .of_error fun _ => ⟨_, rfl⟩
  | some arrays => exact .pure _

/-- A `FOR` is read steadily. -/
theorem steady_readLoop (column : Span) : Steady (readLoop column) := by
  intro n
  refine .take Token.isName plain_isName ?_ fun ts missed => ?_
  · rintro ⟨t, d⟩ found m _
    cases t with
    | name i =>
      by_cases reserved : Builtin.isReserved i.name = true
      · refine .of_error fun ts => ?_
        have failed : Target.readName (⟨.name i, d⟩ :: ts) = .error _ := if_pos reserved
        rw [readLoop, failed]
        exact ⟨_, rfl⟩
      have named (ts : List Lexeme) :
          Target.readName (⟨.name i, d⟩ :: ts) = .ok ((d, i), ts) := if_neg reserved
      simp only [readLoop, bind_of_eq_ok (named _)]
      refine .ite (.of_error fun _ => ⟨_, rfl⟩) (.equals fun first => ?_)
      dsimp only
      refine .expect rfl (.bind (Expr.steady_read m) fun last => ?_) nofun
      refine .head (p := fun ts => pure (.loop column i first last none, ts))
        [Token.word .STEP].contains (plain_contains rfl) ?_ ?_ (.pure _)
      · rintro ⟨t, d⟩ found k _
        obtain rfl : t = .word .STEP := by simpa using found
        exact .map (Expr.steady_read k) fun step => loop column i first last (some step)
      · intro ts missed
        dsimp only
        split
        next => cases missed _ _ rfl
        next => rfl
    | _ => cases found
  · obtain ⟨e, failed⟩ := Target.exists_error_of_misses missed
    rw [readLoop, failed]
    exact ⟨e, rfl⟩

/-- An assignment is read steadily, once its name is there. -/
theorem steady_readAssign (column : Span) (i : Ident) (d : Span) :
    Steady fun ts => readAssign column (⟨.name i, d⟩ :: ts) := by
  intro n
  refine .bind (Target.steady_read_name i d n) fun target => ?_
  exact .equals fun value => .pure (assign column target value)

/-- The prompt of an `INPUT` is read steadily. -/
theorem steady_readPrompt : Steady readPrompt := by
  intro n
  refine .head (p := fun ts => pure ("? ", ts)) Token.isString plain_isString ?_ ?_ (.pure _)
  · rintro ⟨t, column⟩ found m _
    cases t with
    | string s =>
      refine .take [Token.semicolon, Token.comma].contains (plain_contains rfl) ?_
        fun ts missed => ?_
      · rintro ⟨t, d⟩ found k _
        obtain rfl | rfl : t = .semicolon ∨ t = .comma := by simpa using found
        · exact .pure (s ++ "? ")
        · exact .pure s
      · unfold readPrompt
        split
        next same =>
          cases same
          cases missed _ _ rfl
        next same =>
          cases same
          cases missed _ _ rfl
        next => exact ⟨_, rfl⟩
        next other => exact absurd rfl (other _ _ _)
    | _ => cases found
  · intro ts missed
    unfold readPrompt
    split
    next => cases missed _ _ rfl
    next => cases missed _ _ rfl
    next => cases missed _ _ rfl
    next => rfl

/-- The names of a `NEXT` are read steadily. -/
theorem steady_readNextNames : Steady readNextNames := by
  intro n
  induction n using Nat.strongRecOn with
  | ind n ih =>
    refine .take Token.isName plain_isName ?_ fun ts missed => ?_
    · rintro ⟨t, column⟩ found m less
      cases t with
      | name name =>
        refine .head (p := fun ts => pure ([.next column (some name)], ts)) [Token.comma].contains
          (plain_contains rfl) ?_ ?_ (.pure _)
        · rintro ⟨t, d⟩ found k less'
          obtain rfl : t = .comma := by simpa using found
          exact .map (ih k (Nat.lt_trans less' less)) (next column (some name) :: ·)
        · intro ts missed
          unfold readNextNames
          split
          next same =>
            cases same
            cases missed _ _ rfl
          next same =>
            cases same
            rfl
          next other => exact absurd rfl (other _ _ _)
      | _ => cases found
    · unfold readNextNames
      split
      next => cases missed _ _ rfl
      next => cases missed _ _ rfl
      next => exact ⟨_, rfl⟩

/-- A list of line numbers is a number and, after a comma, a list. -/
theorem readLines_eq (ts : List Lexeme) :
    readLines ts = Lexeme.lineNumber ts >>= fun r =>
      match r.2 with
      | ⟨.comma, _⟩ :: rest => readLines rest >>= fun s => pure (r.1 :: s.1, s.2)
      | rest => pure ([r.1], rest) := by
  fun_cases readLines ts with
  | case1 t column rest =>
    unfold Lexeme.lineNumber
    dsimp only
    split <;> rfl
  | case2 ts single =>
    cases read : Lexeme.lineNumber ts with
    | error => rfl
    | ok r =>
      obtain ⟨line, rest⟩ := r
      obtain ⟨t, rfl⟩ : ∃ t, ts = t :: rest := Lexeme.exists_of_lineNumber read
      show Except.ok ([line], rest) = _
      dsimp only [bind, Except.bind]
      split
      next => exact absurd rfl (single _ _ _)
      next => rfl

/-- Lists of line numbers are read steadily. -/
theorem steady_readLines : Steady readLines := by
  intro n
  induction n using Nat.strongRecOn with
  | ind n ih =>
    rw [show readLines = _ from funext readLines_eq]
    refine .bind (Lexeme.steady_lineNumber n) fun line => ?_
    dsimp only
    refine .head (p := fun ts => pure ([line], ts)) [Token.comma].contains (plain_contains rfl)
      ?_ ?_ (.pure _)
    · rintro ⟨t, d⟩ found k less
      obtain rfl : t = .comma := by simpa using found
      exact .map (ih k less) (line :: ·)
    · intro ts missed
      split
      next => cases missed _ _ rfl
      next => rfl

/-- An `ON` is read steadily. -/
theorem steady_readOn (column : Span) : Steady (readOn column) := by
  intro n
  refine .bind (Expr.steady_read n) fun selector => ?_
  dsimp only
  refine .take [Token.word .GOTO, .word .GO_TO, .word .GOSUB, .word .GO_SUB].contains
    (plain_contains rfl) ?_ fun ts missed => ?_
  · rintro ⟨t, d⟩ found k _
    have goto := SteadyTo.map (steady_readLines k) (onGoto column selector)
    have gosub := SteadyTo.map (steady_readLines k) (onGosub column selector)
    obtain rfl | rfl | rfl | rfl :
        t = .word .GOTO ∨ t = .word .GO_TO ∨ t = .word .GOSUB ∨ t = .word .GO_SUB := by
      simpa using found
    · exact goto
    · exact goto
    · exact gosub
    · exact gosub
  · split
    next => cases missed _ _ rfl
    next => cases missed _ _ rfl
    next => cases missed _ _ rfl
    next => cases missed _ _ rfl
    next => exact ⟨_, rfl⟩

/-- A `RESTORE` is read steadily. -/
theorem steady_readRestore (column : Span) : Steady (readRestore column) := by
  intro n
  refine .choose (p := fun ts => pure (.restore column none, ts))
    (g := fun ts => Lexeme.lineNumber ts >>= fun r => pure (.restore column (some r.1), r.2))
    (fun t => t.isNumber || t.isString) ?_ ?_ ?_
    (.map (Lexeme.steady_lineNumber n) fun line => restore column (some line)) (.pure _)
  · intro t found
    cases t with
    | number | string => exact ⟨rfl, rfl⟩
    | _ => cases found
  · rintro ⟨t, d⟩ ts found
    cases t with
    | number | string => rfl
    | _ => cases found
  · intro ts missed
    unfold readRestore
    split
    next => cases missed _ _ rfl
    next => cases missed _ _ rfl
    next => rfl

/-- So many items of a `PRINT` are read steadily. -/
theorem steady_readItems_count (count : Nat) : Steady (readItems count) := by
  induction count with
  | zero => exact fun n => .of_error fun ts => ⟨_, rfl⟩
  | succ count ih =>
    intro n
    refine .atEnd (.pure []) ?_ ?_
    · refine .head (p := fun ts => Expr.read ts >>= fun r =>
          readItems count r.2 >>= fun s => pure (.value r.1 :: s.1, s.2))
        [Token.semicolon, .comma].contains (plain_contains rfl) ?_ ?_
        (.bind (Expr.steady_read n) fun value => .map (ih n) (PrintItem.value value :: ·))
      · rintro ⟨t, d⟩ found k _
        obtain rfl | rfl : t = .semicolon ∨ t = .comma := by simpa using found
        · exact .map (ih k) (PrintItem.semicolon d :: ·)
        · exact .map (ih k) (PrintItem.comma d :: ·)
      · intro ts missed
        dsimp only
        split
        next => cases missed _ _ rfl
        next => cases missed _ _ rfl
        next => rfl
    · intro t rest unfixed
      obtain ⟨e, failed⟩ := Expr.exists_error_of_unfixed rest unfixed
      obtain ⟨t, d⟩ := t
      cases t with
      | datum | remark | endOfLine =>
        refine ⟨e, ?_⟩
        dsimp only
        rw [failed]
        rfl
      | _ => cases unfixed

/-- A count that exceeds the number of lexemes is as good as any other that suffices. -/
theorem readItems_eq_ok {count : Nat} {ts rest : List Lexeme} {items : List PrintItem}
    (done : readItems count ts = .ok (items, rest)) {count' : Nat} (enough : ts.length < count') :
    readItems count' ts = .ok (items, rest) := by
  induction count generalizing ts rest items count' with
  | zero => cases done
  | succ count ih =>
    cases count' with
    | zero => omega
    | succ count' =>
      rw [readItems.eq_def] at done ⊢
      dsimp only at done ⊢
      split at done
      next ends => rw [if_pos ends, done]
      next goesOn =>
        rw [if_neg goesOn]
        have goOn {item : PrintItem} {tail : List Lexeme} (shorter : tail.length < count')
            (done : (readItems count tail >>= fun r => pure (item :: r.1, r.2)) =
              .ok (items, rest)) :
            (readItems count' tail >>= fun r => pure (item :: r.1, r.2)) = .ok (items, rest) := by
          obtain ⟨others, more, done⟩ := exists_of_bind_eq_ok done
          rw [bind_of_eq_ok (ih more shorter)]
          exact done
        split at done
        next => exact goOn (Nat.lt_of_succ_lt_succ enough) done
        next => exact goOn (Nat.lt_of_succ_lt_succ enough) done
        next =>
          obtain ⟨⟨value, tail⟩, read, done⟩ := exists_of_bind_eq_ok done
          have shorter : tail.length < count' :=
            Nat.lt_of_lt_of_le (Expr.read_eq_ok_iff.mp read).length_lt (Nat.le_of_lt_succ enough)
          rw [bind_of_eq_ok read]
          exact goOn shorter done

/-- The items of a `PRINT` are read steadily. -/
theorem steady_readItems : Steady fun ts => readItems (ts.length + 1) ts := by
  intro n ts items rest short done
  obtain ⟨shorter, spaced, alike⟩ := steady_readItems_count _ n ts items rest short done
  refine ⟨shorter, spaced, fun us h => ?_⟩
  obtain ⟨vs, read, left⟩ := alike us h
  exact ⟨vs, readItems_eq_ok read (Nat.lt_succ_self _), left⟩

/-- What follows an item of data: more items after a comma, or nothing. -/
def afterItem (item : Datum) : List Lexeme → WithRest (List Datum)
  | ⟨.comma, _⟩ :: rest => (item :: (readData rest).1, (readData rest).2)
  | ts => ([item], ts)

/-- A string is a quoted data item. -/
theorem readData_string (s : String) (column : Span) (ts : List Lexeme) :
    readData (⟨.string s, column⟩ :: ts) = afterItem (.quoted s) ts := by
  unfold afterItem
  split
  next => rfl
  next other => exact readData.eq_4 _ _ _ other

/-- An unquoted item is a data item as it stands. -/
theorem readData_datum (s : String) (column : Span) (ts : List Lexeme) :
    readData (⟨.datum s, column⟩ :: ts) = afterItem (unquotedItem s) ts := by
  unfold afterItem
  split
  next => rfl
  next other => exact readData.eq_5 _ _ _ other

/-- What follows a data item is read steadily, if shorter lists are. -/
theorem steadyTo_afterItem {n : Nat} (ih : ∀ m < n, SteadyTo m fun ts => .ok (readData ts))
    (item : Datum) : SteadyTo n fun ts => .ok (afterItem item ts) := by
  refine .head (p := fun ts => pure ([item], ts)) [Token.comma].contains (plain_contains rfl)
    ?_ ?_ (.pure _)
  · rintro ⟨t, d⟩ found k less
    obtain rfl : t = .comma := by simpa using found
    exact .map (ih k less) (item :: ·)
  · intro ts missed
    unfold afterItem
    split
    next => cases missed _ _ rfl
    next => rfl

/-- Reads data items of which the first one is not quoted. -/
def readUnquoted (ts : List Lexeme) : Except Refusal (WithRest (List Datum)) :=
  match ts with
  | ⟨.datum s, _⟩ :: rest => .ok (afterItem (unquotedItem s) rest)
  | _ => .ok ([.unquoted ""], ts)

/-- An empty item before the end of the line is the same as none. -/
theorem steady_readData : Steady fun ts => .ok (readData ts) := by
  intro n
  induction n using Nat.strongRecOn with
  | ind n ih =>
    -- The length is bounded for the sake of the items after a comma, which are read by the same
    -- function.
    refine .head (p := readUnquoted) (fun t => t.isString || t == .comma) ?_ ?_ ?_ ?_
    · intro t found
      cases t with
      | string | comma => exact ⟨rfl, rfl⟩
      | _ => cases found
    · rintro ⟨t, column⟩ found m less
      cases t with
      | string s =>
        simp only [readData_string]
        exact steadyTo_afterItem (fun k less' => ih k (Nat.lt_trans less' less)) _
      | comma => exact .map (ih m less) (.unquoted "" :: ·)
      | _ => cases found
    · intro ts missed
      unfold readUnquoted
      split
      next => rw [readData_datum]
      next other =>
        refine congrArg Except.ok (readData.eq_6 ts ?_ ?_ ?_ ?_ ?_)
        · rintro _ _ _ _ rfl
          cases missed _ _ rfl
        · rintro _ _ _ _ rfl
          exact other _ _ _ rfl
        · rintro _ _ rfl
          cases missed _ _ rfl
        · rintro _ _ _ rfl
          cases missed _ _ rfl
        · rintro _ _ _ rfl
          exact other _ _ _ rfl
    · intro ts items rest short done
      cases ts with
      | nil =>
        cases done
        exact ⟨Nat.le_refl _, id, nofun⟩
      | cons t tail =>
        obtain ⟨t, column⟩ := t
        cases t with
        | datum s =>
          obtain ⟨shorter, spaced, alike⟩ :=
            steadyTo_afterItem ih (unquotedItem s) tail items rest (Nat.le_of_succ_le short) done
          refine ⟨Nat.le_succ_of_le shorter, fun h => Lexeme.spaced_cons rfl (spaced h), ?_⟩
          intro us h
          cases h with
          | cons tails => exact alike _ tails
          | datum =>
            cases done
            exact ⟨_, rfl, .close⟩
        | _ =>
          cases done
          refine ⟨Nat.le_refl _, id, fun us h => ⟨us, ?_, h⟩⟩
          cases h <;> rfl

/-- An empty remark is the same as none. -/
theorem steady_remark (column : Span) : Steady fun ts =>
    match ts with
    | ⟨.remark _, _⟩ :: rest => Except.ok (Command.remark column, rest)
    | _ => .ok (.remark column, ts) := by
  intro n ts command rest short done
  cases ts with
  | nil =>
    cases done
    exact ⟨Nat.le_refl _, id, nofun⟩
  | cons t tail =>
    obtain ⟨t, column⟩ := t
    cases t with
    | remark s =>
      cases done
      refine ⟨Nat.le_succ _, Lexeme.spaced_cons rfl, fun us h => ?_⟩
      cases h with
      | cons tails => exact ⟨_, rfl, tails⟩
      | remark => exact ⟨_, rfl, .close⟩
    | _ =>
      cases done
      refine ⟨Nat.le_refl _, id, fun us h => ⟨us, ?_, h⟩⟩
      cases h <;> rfl

/-- The targets of an `INPUT` follow its prompt. -/
theorem steady_input (column : Span) : Steady fun ts => readPrompt ts >>= fun r =>
    Target.readList (r.2.length + 1) r.2 >>= fun s => pure (input column r.1 s.1, s.2) :=
  fun n => .bind (steady_readPrompt n) fun prompt =>
    .map (Target.steady_readList n) (input column prompt)

/-- A statement that a word opens is read steadily. -/
theorem steady_readSingle (word : Word) (column : Span) (whole : List Lexeme → List Lexeme) :
    Steady fun ts => readSingle (whole ts) word column ts := by
  intro n
  cases word with
  | CLEAR => exact .pure (clear column)
  | DATA => exact .map (steady_readData n) (data column)
  | DEF => exact steady_readDefine column n
  | DIM => exact steady_readDimension column n
  | END => exact .pure (finish column)
  | FOR => exact steady_readLoop column n
  | GOSUB | GO_SUB => exact .map (Lexeme.steady_lineNumber n) (gosub column)
  | GOTO | GO_TO => exact .map (Lexeme.steady_lineNumber n) (goto column)
  | INPUT => exact steady_input column n
  | LET =>
    refine .take Token.isName plain_isName ?_ fun ts missed => ?_
    · rintro ⟨t, d⟩ found m _
      cases t with
      | name name => exact steady_readAssign column name d m
      | _ => cases found
    · obtain ⟨e, failed⟩ := Target.exists_error_of_misses missed
      refine ⟨e, ?_⟩
      show readAssign column ts = _
      rw [readAssign, Target.read, failed]
      rfl
  | ON => exact steady_readOn column n
  | PRINT | QUESTION => exact .map (steady_readItems n) (print column)
  | READ => exact .map (Target.steady_readList n) (read column)
  | REM | APOSTROPHE => exact steady_remark column n
  | RESTORE => exact steady_readRestore column n
  | RETURN => exact .pure (returnBack column)
  | STOP => exact .pure (stop column)
  | IF | NEXT | ELSE | FN | STEP | THEN | TO => exact .of_error fun _ => ⟨_, rfl⟩

/-- The token starts a statement. -/
def startsStatement : Token → Bool
  | .name _ | .word _ => true
  | _ => false

/-- A reader may go by the tokens that start statements. -/
theorem plain_startsStatement : Plain startsStatement := by
  intro t found
  cases t with
  | name | word => exact ⟨rfl, rfl⟩
  | _ => cases found

/-- Without a token that starts one, no statement is read. -/
theorem exists_error_of_startless {ts : List Lexeme} (missed : Misses startsStatement ts) :
    ∃ e, readStatement ts = .error e := by
  unfold readStatement
  split
  next => cases missed _ _ rfl
  next => cases missed _ _ rfl
  next => cases missed _ _ rfl
  next => exact ⟨_, rfl⟩

/-- A statement is read steadily, once a token that starts one is there. -/
theorem steady_readStatement_cons {t : Lexeme} (found : startsStatement t.token = true) :
    Steady fun ts => readStatement (t :: ts) := by
  intro n
  obtain ⟨t, column⟩ := t
  cases t with
  | name name => exact .map (steady_readAssign column name column n) ([·])
  | word w =>
    cases w with
    | NEXT =>
      refine .choose (g := readNextNames) (p := fun ts => pure ([.next column none], ts))
        Token.isName plain_isName ?_ ?_ (steady_readNextNames n) (.pure _)
      · rintro ⟨t, d⟩ ts found
        cases t with
        | name => rfl
        | _ => cases found
      · intro ts missed
        rcases ts with _ | ⟨⟨t, d⟩, ts⟩
        · rfl
        cases t with
        | name => cases missed _ _ rfl
        | _ => rfl
    | _ => exact .map (steady_readSingle _ column (⟨.word _, column⟩ :: ·) n) ([·])
  | _ => cases found

/-- Statements are read steadily. -/
theorem steady_readStatement : Steady readStatement :=
  fun _ => .take startsStatement plain_startsStatement
    (fun _ found m _ => steady_readStatement_cons found m) fun _ => exists_error_of_startless

/-- A statement takes at least one lexeme. -/
theorem length_lt_of_readStatement {ts rest : List Lexeme} {commands : List Command}
    (done : readStatement ts = .ok (commands, rest)) : rest.length < ts.length := by
  by_cases missed : Misses startsStatement ts
  · obtain ⟨e, failed⟩ := exists_error_of_startless missed
    rw [failed] at done
    cases done
  · obtain ⟨t, tail, rfl, found⟩ := SteadyTo.exists_of_not_misses missed
    exact Nat.lt_succ_of_le ((steady_readStatement_cons found).apply done).1

end Command

/-! ## Lines -/

namespace Statement

/-- A reader of branches that is steady whatever was read before. -/
def SteadyExtender (extend : Extender) : Prop :=
  ∀ code, Steady fun ts => extend ts code

variable {extend : Extender}

/-- A branch is read steadily, if its statements are. -/
theorem SteadyExtender.readBranch (steady : SteadyExtender extend) :
    SteadyExtender (readBranch extend) := by
  intro code n
  refine .head (p := fun ts => extend ts code) Token.isNumber plain_isNumber ?_ ?_ (steady code n)
  · rintro ⟨t, column⟩ found m _
    cases t with
    | number s =>
      exact .bind (Lexeme.steady_lineNumber_number s column m) fun line =>
        steady (code.push (.run (.goto column line))) m
    | _ => cases found
  · intro ts missed
    unfold Statement.readBranch
    split
    next => cases missed _ _ rfl
    next => rfl

/-- The outcome of an `IF` is read steadily, if its statements are. -/
theorem SteadyExtender.readOutcome (steady : SteadyExtender extend) :
    SteadyExtender (readOutcome extend) := by
  intro code n
  refine .take [Token.word .THEN, .word .GOTO, .word .GO_TO].contains (plain_contains rfl) ?_
    fun ts missed => ?_
  · rintro ⟨t, column⟩ found m _
    have jump : SteadyTo m fun ts => Lexeme.lineNumber ts >>= fun r =>
        extend r.2 (code.push (.run (.goto column r.1))) :=
      .bind (Lexeme.steady_lineNumber m) fun line => steady (code.push (.run (.goto column line))) m
    obtain rfl | rfl | rfl : t = .word .THEN ∨ t = .word .GOTO ∨ t = .word .GO_TO := by
      simpa using found
    · exact steady.readBranch code m
    · exact jump
    · exact jump
  · unfold Statement.readOutcome
    split
    next => cases missed _ _ rfl
    next => cases missed _ _ rfl
    next => cases missed _ _ rfl
    next => exact ⟨_, rfl⟩

/-- An `IF` is read steadily, if the statements of its outcomes are. -/
theorem SteadyExtender.readIf (steady : SteadyExtender extend) (column : Span) :
    SteadyExtender (readIf extend column) := by
  intro code n
  refine .bind (Expr.steady_read n) fun predicate => ?_
  refine .bind (steady.readOutcome (code.push (.branch column predicate 0)) n) fun taken => ?_
  dsimp only
  refine .head (p := fun ts => pure (setTarget taken code.size taken.size, ts))
    [Token.word .ELSE].contains (plain_contains rfl) ?_ ?_ (.pure _)
  · rintro ⟨t, d⟩ found m _
    obtain rfl : t = .word .ELSE := by simpa using found
    exact .map (steady.readBranch _ m) fun code => setTarget code taken.size code.size
  · intro ts missed
    split
    next => cases missed _ _ rfl
    next => rfl

/-- What `readTo` does with a list that starts neither with a colon nor with an `IF`. -/
def readPlain (extend : Extender) : Extender := fun ts code =>
  if Lexeme.atEnd ts = true then pure (code, ts)
  else Command.readStatement ts >>= fun r =>
    if Lexeme.atEnd r.2 = true then extend r.2 (code ++ r.1.map Statement.run)
    else refuse r.2 "UNEXPECTED TOKEN"

/-- A statement and those after it are read steadily, if those are. -/
theorem SteadyExtender.readPlain (steady : SteadyExtender extend) :
    SteadyExtender (readPlain extend) := by
  intro code n
  refine .atEnd (.pure code) (.bind (Command.steady_readStatement n) fun commands => ?_) ?_
  · exact .atEnd (steady (code ++ commands.map Statement.run) n) (.of_error fun _ => ⟨_, rfl⟩)
      fun _ _ _ => ⟨_, rfl⟩
  · rintro ⟨t, column⟩ rest unfixed
    have missed : Misses Command.startsStatement (⟨t, column⟩ :: rest) := by
      rintro _ _ ⟨⟩
      cases t with
      | name | word => cases unfixed
      | _ => rfl
    obtain ⟨e, failed⟩ := Command.exists_error_of_startless missed
    rw [failed]
    exact ⟨e, rfl⟩

/-- What starts neither with a colon nor with an `IF` is read as a statement and those after it. -/
theorem readTo_of_misses {depth : Nat} {ts : List Lexeme} (code : Array Statement)
    (missed : Misses [Token.colon, .word .IF].contains ts) :
    readTo (depth + 1) ts code = readPlain (readTo depth) ts code := by
  unfold readTo readPlain
  split
  next => rfl
  next => rfl
  next => rfl
  next => cases missed _ _ rfl
  next => cases missed _ _ rfl
  next none close other colon branch =>
    have goesOn : ¬Lexeme.atEnd ts = true := by
      unfold Lexeme.atEnd
      split
      next => exact absurd rfl none
      next => exact absurd rfl (close _ _)
      next => cases missed _ _ rfl
      next => exact absurd rfl (other _ _)
      next => nofun
    rw [if_neg goesOn]

/-- Statements are read steadily at every depth. -/
theorem steady_readTo (depth : Nat) : SteadyExtender (readTo depth) := by
  induction depth with
  | zero => exact fun code n => .of_error fun ts => ⟨_, rfl⟩
  | succ depth ih =>
    intro code n
    refine .head [Token.colon, .word .IF].contains (plain_contains rfl) ?_
      (fun ts => readTo_of_misses code) (ih.readPlain code n)
    rintro ⟨t, column⟩ found m _
    obtain rfl | rfl : t = .colon ∨ t = .word .IF := by simpa using found
    · exact ih code m
    · exact .bind (ih.readIf column code m) fun code => ih code m

/-- On lists of fewer than `n` lexemes, what one reader of branches yields the other yields too. -/
def Covers (n : Nat) (extend extend' : Extender) : Prop :=
  ∀ ts code r, ts.length < n → extend ts code = .ok r → extend' ts code = .ok r

section Covers

variable {n : Nat} {extend' : Extender}

/-- A reader that covers another one covers it after a jump. -/
theorem Covers.jump (covers : Covers n extend extend') {column : Span} {ts : List Lexeme}
    {code : Array Statement} {r : WithRest (Array Statement)} (short : ts.length < n)
    (done : (Lexeme.lineNumber ts >>= fun x =>
      extend x.2 (code.push (.run (.goto column x.1)))) = .ok r) :
    (Lexeme.lineNumber ts >>= fun x =>
      extend' x.2 (code.push (.run (.goto column x.1)))) = .ok r := by
  obtain ⟨⟨line, after⟩, number, done⟩ := exists_of_bind_eq_ok done
  have shorter := (Lexeme.steady_lineNumber.apply number).1
  rw [bind_of_eq_ok number]
  exact covers _ _ r (Nat.lt_of_le_of_lt shorter short) done

/-- A reader that covers another one covers it in branches. -/
theorem Covers.readBranch (covers : Covers n extend extend') :
    Covers n (readBranch extend) (readBranch extend') := by
  intro ts code r short done
  unfold Statement.readBranch at done ⊢
  split at done
  next => exact covers.jump short done
  next => exact covers _ _ r short done

/-- A reader that covers another one covers it in outcomes. -/
theorem Covers.readOutcome (covers : Covers n extend extend') :
    Covers n (readOutcome extend) (readOutcome extend') := by
  intro ts code r short done
  unfold Statement.readOutcome at done ⊢
  split at done
  next => exact covers.readBranch _ _ r (Nat.lt_of_succ_lt short) done
  next => exact covers.jump (Nat.lt_of_succ_lt short) done
  next => exact covers.jump (Nat.lt_of_succ_lt short) done
  next => cases done

/-- A reader that covers another one covers it in an `IF`, whose outcomes are shorter than all of
it. -/
theorem Covers.readIf (covers : Covers n extend extend') (steady : SteadyExtender extend)
    (column : Span) : Covers n (readIf extend column) (readIf extend' column) := by
  intro ts code r short done
  obtain ⟨⟨predicate, next⟩, read, done⟩ := exists_of_bind_eq_ok done
  obtain ⟨⟨taken, rest⟩, outcome, done⟩ := exists_of_bind_eq_ok done
  have nextShorter := (Expr.steady_read.apply read).1
  have restShorter := ((steady.readOutcome _).apply outcome).1
  have nextShort : next.length < n := Nat.lt_of_le_of_lt nextShorter short
  have restShort : rest.length < n := Nat.lt_of_le_of_lt restShorter nextShort
  rw [Statement.readIf, bind_of_eq_ok read]
  dsimp only
  rw [bind_of_eq_ok (covers.readOutcome next _ _ nextShort outcome)]
  dsimp only at done ⊢
  split at done
  next =>
    obtain ⟨⟨others, last⟩, branch, done⟩ := exists_of_bind_eq_ok done
    rw [bind_of_eq_ok (covers.readBranch _ _ _ (Nat.lt_of_succ_lt restShort) branch)]
    exact done
  next => exact done

end Covers

/-- A depth that exceeds the number of lexemes is as good as any other that suffices. -/
theorem readTo_covers (depth depth' : Nat) : Covers depth' (readTo depth) (readTo depth') := by
  -- The depth of the first reader is what goes down in every call; that of the second one only has
  -- to stay above the length of what is left.
  induction depth generalizing depth' with
  | zero => nofun
  | succ depth ih =>
    intro ts code r short done
    cases depth' with
    | zero => exact absurd short (Nat.not_lt_zero _)
    | succ depth' =>
      by_cases missed : Misses [Token.colon, .word .IF].contains ts
      · rw [readTo_of_misses code missed] at done ⊢
        unfold readPlain at done ⊢
        split at done
        next ends => rw [if_pos ends, done]
        next goesOn =>
          obtain ⟨⟨commands, rest⟩, read, done⟩ := exists_of_bind_eq_ok done
          have shorter := Command.length_lt_of_readStatement read
          rw [if_neg goesOn, bind_of_eq_ok read]
          dsimp only at done ⊢
          split at done
          next ends =>
            rw [if_pos ends]
            exact ih depth' _ _ r (Nat.lt_of_lt_of_le shorter (Nat.le_of_lt_succ short)) done
          next => cases done
      · obtain ⟨⟨t, column⟩, tail, rfl, found⟩ := SteadyTo.exists_of_not_misses missed
        have tailShort : tail.length < depth' := Nat.lt_of_succ_lt_succ short
        obtain rfl | rfl : t = .colon ∨ t = .word .IF := by simpa using found
        · exact ih depth' tail code r tailShort done
        · obtain ⟨⟨taken, rest⟩, branch, done⟩ := exists_of_bind_eq_ok done
          have shorter := (((steady_readTo depth).readIf column code).apply branch).1
          have branch' :=
            (ih depth').readIf (steady_readTo depth) column tail code _ tailShort branch
          rw [readTo, bind_of_eq_ok branch']
          exact ih depth' rest taken r (Nat.lt_of_le_of_lt shorter tailShort) done

/-- What is accepted of a line does not depend on how the line ends. -/
theorem readLine_of_alike {ts us : List Lexeme} {code : Array Statement}
    (done : readLine ts = .ok code) (alike : Alike ts us) : readLine us = .ok code := by
  obtain ⟨⟨read, rest⟩, reads, done⟩ := exists_of_bind_eq_ok done
  obtain ⟨-, -, likewise⟩ := (steady_readTo _ #[]).apply reads
  obtain ⟨vs, reads', left⟩ := likewise us alike
  rw [readLine, bind_of_eq_ok (readTo_covers _ _ us #[] _ (Nat.lt_succ_self _) reads')]
  cases left with
  | @cons t =>
    obtain ⟨t, column⟩ := t
    cases t with
    | endOfLine => exact done
    | _ => cases done
  | close => exact done
  | datum | remark => cases done

/-- In a line that is accepted, no relation follows another. -/
theorem spaced_of_readLine {ts : List Lexeme} {code : Array Statement}
    (done : readLine ts = .ok code) : Spaced ts := by
  obtain ⟨⟨read, rest⟩, reads, done⟩ := exists_of_bind_eq_ok done
  obtain ⟨-, spaced, -⟩ := (steady_readTo _ #[]).apply reads
  apply spaced
  dsimp only at done
  split at done
  next => trivial
  next => exact .inl rfl
  next => cases done

/-- No line that is accepted starts with a number. -/
theorem ne_number_of_readLine {s : String} {column : Span} {rest : List Lexeme}
    {code : Array Statement} : readLine (⟨.number s, column⟩ :: rest) ≠ .ok code := by
  intro done
  obtain ⟨⟨read, left⟩, reads, -⟩ := exists_of_bind_eq_ok done
  have missed : Misses [Token.colon, .word .IF].contains (⟨.number s, column⟩ :: rest) := by
    rintro _ _ ⟨⟩
    rfl
  rw [readTo_of_misses #[] missed] at reads
  cases reads

end Statement

end NumberedBasic
