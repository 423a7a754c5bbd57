import NumberedBasic.Proofs.PairedReading
import NumberedBasic.Proofs.SteadyStatements

/-!
# Statements of two lines read side by side

The rules for readings that agree, applied to one reader of statements after another. A statement
has one column of its own, that of the token it starts with (`Statement.mark`), and may have others
further inside (`Statement.marks`). The result is `Command.agree_readStatement`: given the same
tokens, a statement is refused alike or read into commands that match (`Statement.Matched`), which
says that they are the same without their columns and that each column belongs to the right token.
-/

set_option autoImplicit false

namespace NumberedBasic

open Lexeme (SameTokens refuse expect functionName)

/-! ## Columns of statements -/

namespace Mark

/-- The column of a jump: its keyword, or the line number that stands for one after `THEN` and
`ELSE`. -/
def jump (column : Span) (line : LineNumber) : Mark where
  column
  Fits before t := t.usual = .word .GOTO ∨
    (before = some (.word .THEN) ∨ before = some (.word .ELSE)) ∧
      (∃ s, t = .number s) ∧ t.lineNumber = .ok line

/-- The column of an assignment: its keyword or, if it has none, the name assigned to. -/
def assignment (column : Span) (i : Ident) : Mark where
  column
  Fits before t := t.usual = .word .LET ∨ before ≠ some (.word .LET) ∧ t = .name i

end Mark

namespace Element

/-- An element without its columns. -/
def bare (e : Element) : Element :=
  ⟨.none, e.ident, Expr.bareAll e.subscripts⟩

/-- The columns of an element in the order of its text. -/
def marks (e : Element) : List Mark :=
  .token e.column (.name e.ident) :: Expr.marksAll e.subscripts

end Element

namespace Target

/-- A target without its columns. -/
def bare : Target → Target
  | .scalar _ n => .scalar .none n
  | .element e => .element e.bare

/-- The columns of a target in the order of its text. -/
def marks : Target → List Mark
  | .scalar c i => [.token c (.name i)]
  | .element e => e.marks

end Target

namespace PrintItem

/-- An item without its columns. -/
def bare : PrintItem → PrintItem
  | .value e => .value e.bare
  | .comma _ => .comma .none
  | .semicolon _ => .semicolon .none

/-- The columns of an item in the order of its text. -/
def marks : PrintItem → List Mark
  | .value e => e.marks
  | .comma c => [.token c .comma]
  | .semicolon c => [.token c .semicolon]

end PrintItem

namespace Command

/-- A command without its columns. -/
def bare : Command → Command
  | .clear _ => .clear .none
  | .data _ items => .data .none items
  | .define _ i parameters body => .define .none i parameters body.bare
  | .dimension _ arrays => .dimension .none (arrays.map Element.bare)
  | .finish _ => .finish .none
  | .loop _ i first last step => .loop .none i first.bare last.bare (step.map Expr.bare)
  | .gosub _ line => .gosub .none line
  | .goto _ line => .goto .none line
  | .input _ prompt targets => .input .none prompt (targets.map Target.bare)
  | .assign _ target value => .assign .none target.bare value.bare
  | .next _ i => .next .none i
  | .onGoto _ selector lines => .onGoto .none selector.bare lines
  | .onGosub _ selector lines => .onGosub .none selector.bare lines
  | .print _ items => .print .none (items.map PrintItem.bare)
  | .read _ targets => .read .none (targets.map Target.bare)
  | .remark _ => .remark .none
  | .restore _ line => .restore .none line
  | .returnBack _ => .returnBack .none
  | .stop _ => .stop .none

/-- The column of the command itself: that of its keyword, save for the name of a `NEXT` that has
one, for an assignment without `LET` and for a jump without `GOTO`. -/
def mark : Command → Mark
  | .clear c => .keyword c .CLEAR
  | .data c _ => .keyword c .DATA
  | .define c _ _ _ => .keyword c .DEF
  | .dimension c _ => .keyword c .DIM
  | .finish c => .keyword c .END
  | .loop c _ _ _ _ => .keyword c .FOR
  | .gosub c _ => .keyword c .GOSUB
  | .goto c line => .jump c line
  | .input c _ _ => .keyword c .INPUT
  | .assign c target _ => .assignment c target.ident
  | .next c none => .keyword c .NEXT
  | .next c (some i) => .token c (.name i)
  | .onGoto c _ _ => .keyword c .ON
  | .onGosub c _ _ => .keyword c .ON
  | .print c _ => .keyword c .PRINT
  | .read c _ => .keyword c .READ
  | .remark c => .keyword c .REM
  | .restore c _ => .keyword c .RESTORE
  | .returnBack c => .keyword c .RETURN
  | .stop c => .keyword c .STOP

/-- The other columns of a command in the order of its text. -/
def marks : Command → List Mark
  | .define _ _ _ body => body.marks
  | .dimension _ arrays => arrays.flatMap Element.marks
  | .loop _ _ first last step => first.marks ++ (last.marks ++ step.elim [] Expr.marks)
  | .input _ _ targets => targets.flatMap Target.marks
  | .assign _ target value => target.marks ++ value.marks
  | .onGoto _ selector _ => selector.marks
  | .onGosub _ selector _ => selector.marks
  | .print _ items => items.flatMap PrintItem.marks
  | .read _ targets => targets.flatMap Target.marks
  | _ => []

end Command

namespace Statement

/-- A statement without its columns. -/
def bare : Statement → Statement
  | .run command => .run command.bare
  | .branch _ predicate target => .branch .none predicate.bare target
  | .skip _ target => .skip .none target

/-- The column of the statement itself. -/
def mark : Statement → Mark
  | .run command => command.mark
  | .branch c _ _ => .keyword c .IF
  | .skip c _ => .keyword c .ELSE

/-- The other columns of a statement in the order of its text. -/
def marks : Statement → List Mark
  | .run command => command.marks
  | .branch _ predicate _ => predicate.marks
  | .skip _ _ => []

/-- Statements are the same without their columns, and those of the first ones belong to tokens of a
line between `n` and `k`. A statement's own column and those inside it are counted apart: a name
that is assigned to without a `LET` has both. -/
structure Matched (source : List Lexeme) (n : Nat) (as bs : List Statement) (k : Nat) : Prop where
  bare : as.map bare = bs.map bare
  heads : Marked source n (as.map mark) k
  marks : Marked source n (as.flatMap marks) k

namespace Matched

variable {source : List Lexeme} {n m k : Nat} {as bs as' bs' : List Statement}

/-- Statements that match still do with those after them that match. -/
theorem append (first : Matched source n as bs m) (second : Matched source m as' bs' k) :
    Matched source n (as ++ as') (bs ++ bs') k where
  bare := by rw [List.map_append, List.map_append, first.bare, second.bare]
  heads := by
    rw [List.map_append]
    exact first.heads.append second.heads
  marks := by
    rw [List.flatMap_append]
    exact first.marks.append second.marks

/-- Two empty lists of statements match. -/
theorem nil (le : n ≤ k) : Matched source n [] [] k :=
  ⟨rfl, .nil le, .nil le⟩

/-- The range that statements match in may end later. -/
theorem stop_le (matched : Matched source n as bs m) (le : m ≤ k) : Matched source n as bs k := by
  simpa using matched.append (.nil le)

/-- Two statements match if they are the same without columns and those of the first one belong to
its tokens. -/
theorem single {a b : Statement} (bare : a.bare = b.bare) (points : a.mark.Points source n)
    (marks : Marked source n a.marks k) (lt : n < k) : Matched source n [a] [b] k where
  bare := congrArg ([·]) bare
  heads := .single points lt
  marks := by simpa using marks

end Matched

end Statement

/-! ## Targets -/

variable {source ts us : List Lexeme} {n : Nat}

/-- What is left after more was read is shorter. -/
theorem length_lt_of_drop {k : Nat} {t : Lexeme} {rest : List Lexeme} (here : source.drop n = ts)
    (there : source.drop k = t :: rest) (le : n ≤ k) : rest.length < ts.length := by
  have whole := congrArg List.length here
  have part := congrArg List.length there
  simp only [List.length_drop, List.length_cons] at whole part
  omega

namespace Target

/-- Names of variables are read alike. -/
theorem agree_readName (here : source.drop n = ts) (same : SameTokens ts us) :
    Agree source (fun a b k => a.2 = b.2 ∧ (Mark.token a.1 (.name a.2)).Points source n ∧ k = n + 1)
      (readName ts) (readName us) := by
  refine .bind (Lexeme.agree_name here same) ?_
  rintro ⟨c, i⟩ ⟨d, i'⟩ k rest rest' ⟨rfl, points, rfl⟩ there same
  dsimp only
  by_cases reserved : Builtin.isReserved i.name = true
  · rw [if_pos reserved, if_pos reserved]
    exact .refuse here _ _
  · rw [if_neg reserved, if_neg reserved]
    exact .ok ⟨rfl, points, rfl⟩ there same

/-- A target starts with its name. -/
theorem agree_read (here : source.drop n = ts) (same : SameTokens ts us) :
    Agree source (fun a b k => Paired bare marks source n a b k ∧ n < k ∧
      ∃ c, source[n]? = some ⟨.name a.ident, c⟩) (read ts) (read us) := by
  refine .bind (agree_readName here same) ?_
  rintro ⟨c, i⟩ ⟨d, i'⟩ k rest rest' ⟨rfl, points, rfl⟩ there same
  have named : ∃ c, source[n]? = some ⟨.name i, c⟩ := by
    obtain ⟨⟨t, c⟩, found, -, rfl⟩ := points
    exact ⟨c, found⟩
  have scalar : Paired bare marks source n (.scalar c i) (.scalar d i) (n + 1) :=
    ⟨rfl, .single points (Nat.lt_succ_self n)⟩
  have lt := Nat.lt_succ_self n
  cases same with
  | nil => exact .ok ⟨scalar, lt, named⟩ there .nil
  | token t e f tails =>
    cases t with
    | leftParen =>
      refine .map (Expr.agree_readArguments (drop_succ_of_drop there) tails)
        (fun es => element ⟨c, i, es⟩) (fun es => element ⟨d, i, es⟩) ?_
      rintro es es' k ⟨bares, marked⟩
      have le := marked.le
      refine ⟨⟨?_, .head points marked (by omega)⟩, by omega, named⟩
      rw [bare, bare, Element.bare, Element.bare, bares]
    | _ => exact .ok ⟨scalar, lt, named⟩ there (.token _ e f tails)
  | word other e f tails => exact .ok ⟨scalar, lt, named⟩ there (.word other e f tails)

/-- Lists of targets are read alike. -/
theorem agree_readList (count : Nat) (here : source.drop n = ts) (same : SameTokens ts us) :
    Agree source (Paired (List.map bare) (List.flatMap marks) source n) (readList count ts)
      (readList count us) := by
  induction count generalizing n ts us with
  | zero => exact .exhausted here _
  | succ count ih =>
    refine .bind (agree_read here same) ?_
    rintro first first' k rest rest' ⟨⟨bares, marked⟩, -, -⟩ there same
    have single : Paired (List.map bare) (List.flatMap marks) source n [first] [first'] k :=
      ⟨congrArg ([·]) bares, by simpa using marked⟩
    cases same with
    | nil => exact .ok single there .nil
    | token t c d tails =>
      cases t with
      | comma =>
        refine .map (ih (drop_succ_of_drop there) tails) (first :: ·) (first' :: ·) ?_
        rintro others others' m ⟨otherBares, otherMarked⟩
        refine ⟨?_, marked.append (otherMarked.start_le (Nat.le_succ k))⟩
        rw [List.map_cons, List.map_cons, bares, otherBares]
      | _ => exact .ok single there (.token _ c d tails)
    | word other c d tails => exact .ok single there (.word other c d tails)

/-- Whether all targets are array elements does not depend on their columns. -/
theorem mapM_element?_bare (targets : List Target) :
    (targets.map bare).mapM element? =
      (targets.mapM element?).map (List.map Element.bare) := by
  induction targets with
  | nil => rfl
  | cons target targets ih =>
    rw [List.map_cons, List.mapM_cons, List.mapM_cons, ih]
    cases target with
    | scalar => rfl
    | element e =>
      cases targets.mapM element? with
      | none => rfl
      | some arrays => rfl

/-- Targets that all are elements have the columns of the elements. -/
theorem marks_of_mapM {targets : List Target} {arrays : List Element}
    (all : targets.mapM element? = some arrays) :
    targets.flatMap marks = arrays.flatMap Element.marks := by
  induction targets generalizing arrays with
  | nil =>
    cases all
    rfl
  | cons target targets ih =>
    rw [List.mapM_cons] at all
    cases target with
    | scalar => cases all
    | element e =>
      cases rest : targets.mapM element? with
      | none =>
        rw [rest] at all
        cases all
      | some others =>
        rw [rest] at all
        cases all
        rw [List.flatMap_cons, List.flatMap_cons, ih rest]
        rfl

end Target

/-! ## Commands -/

namespace Command

open Statement (Matched)

/-- Commands whose keyword was read before `n`: the first one has a given column of its own, they
are the same without their columns, and the others of the first one belong to tokens from `n` up to
`k`. -/
def Under (mark : Mark) (source : List Lexeme) (n : Nat) (a b : Command) (k : Nat) : Prop :=
  a.mark = mark ∧ Paired bare marks source n a b k

/-- A command under its keyword is a statement that matches from the keyword on. -/
theorem Under.matched {mark : Mark} {a b : Command} {k : Nat}
    (under : Under mark source (n + 1) a b k) (points : mark.Points source n) :
    Matched source n ([a].map .run) ([b].map .run) k := by
  obtain ⟨rfl, bares, marked⟩ := under
  exact .single (congrArg Statement.run bares) points (marked.start_le (Nat.le_succ n)) marked.le

/-- Lists of line numbers are read alike. -/
theorem agree_readLines (here : source.drop n = ts) (same : SameTokens ts us) :
    Agree source (fun a b k => a = b ∧ n ≤ k) (readLines ts) (readLines us) := by
  induction long : ts.length using Nat.strongRecOn generalizing n ts us with
  | ind size ih =>
    rw [readLines_eq, readLines_eq us]
    refine .bind (Lexeme.agree_lineNumber here same) ?_
    rintro number _ k rest rest' ⟨rfl, rfl, -⟩ there same
    have le := Nat.le_succ n
    cases same with
    | nil => exact .ok ⟨rfl, le⟩ there .nil
    | token t c d tails =>
      cases t with
      | comma =>
        have shorter := length_lt_of_drop here there le
        refine .map (ih _ (long ▸ shorter) (drop_succ_of_drop there) tails rfl) (number :: ·)
          (number :: ·) ?_
        rintro others _ m ⟨rfl, le⟩
        exact ⟨rfl, by omega⟩
      | _ => exact .ok ⟨rfl, le⟩ there (.token _ c d tails)
    | word other c d tails => exact .ok ⟨rfl, le⟩ there (.word other c d tails)

/-- After an item of data, when what follows a comma is read alike. -/
theorem agree_afterItem (item : Datum) (here : source.drop n = ts) (same : SameTokens ts us)
    (more : ∀ {rest rest' : List Lexeme}, rest.length < ts.length → source.drop (n + 1) = rest →
      SameTokens rest rest' →
      Agree source (fun a b k => a = b ∧ n + 1 ≤ k) (.ok (readData rest)) (.ok (readData rest'))) :
    Agree source (fun a b k => a = b ∧ n ≤ k) (.ok (afterItem item ts))
      (.ok (afterItem item us)) := by
  have le := Nat.le_refl n
  cases same with
  | nil => exact .ok ⟨rfl, le⟩ here .nil
  | token t c d tails =>
    cases t with
    | comma =>
      refine .map (more (Nat.lt_succ_self _) (drop_succ_of_drop here) tails) (item :: ·)
        (item :: ·) ?_
      rintro others _ k ⟨rfl, le⟩
      exact ⟨rfl, by omega⟩
    | _ => exact .ok ⟨rfl, le⟩ here (.token _ c d tails)
  | word other c d tails => exact .ok ⟨rfl, le⟩ here (.word other c d tails)

/-- Data items are read alike. -/
theorem agree_readData (here : source.drop n = ts) (same : SameTokens ts us) :
    Agree source (fun a b k => a = b ∧ n ≤ k) (.ok (readData ts)) (.ok (readData us)) := by
  induction long : ts.length using Nat.strongRecOn generalizing n ts us with
  | ind size ih =>
    have le := Nat.le_refl n
    cases same with
    | nil => exact .ok ⟨rfl, le⟩ here .nil
    | @token t c d ts us tails =>
      have shorter : ts.length < size := long ▸ Nat.lt_succ_self ts.length
      have next := drop_succ_of_drop here
      have after (item : Datum) : Agree source (fun a b k => a = b ∧ n ≤ k)
          (.ok (afterItem item ts)) (.ok (afterItem item us)) := by
        refine (agree_afterItem item next tails fun less there same => ?_).imp ?_
        · exact ih _ (Nat.lt_trans less shorter) there same rfl
        · rintro a b k ⟨rfl, le⟩
          exact ⟨rfl, by omega⟩
      cases t with
      | string s =>
        rw [readData_string, readData_string]
        exact after _
      | datum s =>
        rw [readData_datum, readData_datum]
        exact after _
      | comma =>
        refine .map (ih _ shorter next tails rfl) (.unquoted "" :: ·) (.unquoted "" :: ·) ?_
        rintro others _ k ⟨rfl, le⟩
        exact ⟨rfl, by omega⟩
      | _ => exact .ok ⟨rfl, le⟩ here (.token _ c d tails)
    | word other c d tails => exact .ok ⟨rfl, le⟩ here (.word other c d tails)

/-- Lists of parameters are read alike. -/
theorem agree_readParameters (here : source.drop n = ts) (same : SameTokens ts us) :
    Agree source (fun a b k => a = b ∧ n ≤ k) (readParameters ts) (readParameters us) := by
  induction long : ts.length using Nat.strongRecOn generalizing n ts us with
  | ind size ih =>
    cases same with
    | nil => exact .refuse here _ _
    | token t c d tails =>
      cases t with
      | name name =>
        have next := drop_succ_of_drop here
        cases tails with
        | nil => exact .refuse next _ _
        | token t e f tails =>
          cases t with
          | rightParen => exact .ok ⟨rfl, by omega⟩ (drop_succ_of_drop next) tails
          | comma =>
            have shorter := length_lt_of_drop here next (Nat.le_succ n)
            refine .map (ih _ (long ▸ shorter) (drop_succ_of_drop next) tails rfl) (name :: ·)
              (name :: ·) ?_
            rintro others _ k ⟨rfl, le⟩
            exact ⟨rfl, by omega⟩
          | _ => exact .refuse next _ _
        | word => exact .refuse next _ _
      | _ => exact .refuse here _ _
    | word => exact .refuse here _ _

/-- A `DEF` is read alike. -/
theorem agree_readDefine (c d : Span) (here : source.drop n = ts) (same : SameTokens ts us) :
    Agree source (Under (.keyword c .DEF) source n) (readDefine c ts) (readDefine d us) := by
  refine .expect rfl here same fun rest rest' there same => ?_
  obtain ⟨name, k, rest, rest', named, named', le, there, same⟩ :=
    Lexeme.exists_functionName there same
  rw [named, named']
  -- What comes after the parameters is read alike whether there are any or not.
  have body (parameters : List Ident) {m : Nat} {ts us : List Lexeme} (le : n ≤ m)
      (here : source.drop m = ts) (same : SameTokens ts us) :
      Agree source (Under (.keyword c .DEF) source n)
        (expect (.operator (.binary .equal)) "EXPECTED =" ts >>= fun ts =>
          Expr.read ts >>= fun r => pure (define c name parameters r.1, r.2))
        (expect (.operator (.binary .equal)) "EXPECTED =" us >>= fun us =>
          Expr.read us >>= fun r => pure (define d name parameters r.1, r.2)) := by
    refine .expect rfl here same fun rest rest' there same => ?_
    refine .map (Expr.agree_read there same) (define c name parameters)
      (define d name parameters) ?_
    rintro e e' k ⟨bares, marked⟩
    refine ⟨rfl, ?_, marked.start_le (by omega)⟩
    rw [bare, bare, bares]
  have le : n ≤ k := by omega
  cases same with
  | nil => exact body [] le there .nil
  | token t e f tails =>
    cases t with
    | leftParen =>
      refine .bind (agree_readParameters (drop_succ_of_drop there) tails) ?_
      rintro parameters _ m rest rest' ⟨rfl, after⟩ there same
      exact body parameters (by omega) there same
    | _ => exact body [] le there (.token _ e f tails)
  | word other e f tails => exact body [] le there (.word other e f tails)

/-- A `DIM` is read alike. -/
theorem agree_readDimension (c d : Span) (here : source.drop n = ts) (same : SameTokens ts us) :
    Agree source (Under (.keyword c .DIM) source n) (readDimension c ts) (readDimension d us) := by
  unfold readDimension
  rw [same.length_eq]
  refine .bind (Target.agree_readList _ here same) ?_
  rintro targets targets' k rest rest' ⟨bares, marked⟩ there same
  have elements := congrArg (List.mapM Target.element?) bares
  rw [Target.mapM_element?_bare, Target.mapM_element?_bare] at elements
  dsimp only
  cases all : targets.mapM Target.element? with
  | none =>
    rw [all, Option.map_none, eq_comm, Option.map_eq_none_iff] at elements
    rw [elements]
    exact .refuse there _ _
  | some arrays =>
    rw [all, Option.map_some, eq_comm, Option.map_eq_some_iff] at elements
    obtain ⟨arrays', all', sameBares⟩ := elements
    rw [all']
    refine .ok ⟨rfl, ?_, ?_⟩ there same
    · rw [bare, bare, sameBares]
    · rw [marks, ← Target.marks_of_mapM all]
      exact marked

/-- A `FOR` is read alike. -/
theorem agree_readLoop (c d : Span) (here : source.drop n = ts) (same : SameTokens ts us) :
    Agree source (Under (.keyword c .FOR) source n) (readLoop c ts) (readLoop d us) := by
  refine .bind (Target.agree_readName here same) ?_
  rintro ⟨-, name⟩ ⟨-, _⟩ k rest rest' ⟨rfl, -, rfl⟩ there same
  dsimp only
  by_cases text : name.isText = true
  · rw [if_pos text, if_pos text]
    exact .refuse here _ _
  · rw [if_neg text, if_neg text]
    refine .expect rfl there same fun rest rest' there same => ?_
    refine .bind (Expr.agree_read there same) ?_
    rintro first first' k rest rest' ⟨firstBare, firstMarked⟩ there same
    refine .expect rfl there same fun rest rest' there same => ?_
    refine .bind (Expr.agree_read there same) ?_
    rintro last last' m rest rest' ⟨lastBare, lastMarked⟩ there same
    have marked : Marked source n (first.marks ++ last.marks) m :=
      (firstMarked.start_le (by omega)).append (lastMarked.start_le (Nat.le_succ k))
    have single : Under (.keyword c .FOR) source n (.loop c name first last none)
        (.loop d name first' last' none) m := by
      refine ⟨rfl, ?_, ?_⟩
      · rw [bare, bare, firstBare, lastBare]
      · simpa [marks] using marked
    cases same with
    | nil => exact .ok single there .nil
    | token t e f tails =>
      cases t with
      | word w =>
        cases w with
        | STEP =>
          refine .map (Expr.agree_read (drop_succ_of_drop there) tails)
            (fun step => loop c name first last (some step))
            (fun step => loop d name first' last' (some step)) ?_
          rintro step step' k ⟨stepBare, stepMarked⟩
          refine ⟨rfl, ?_, ?_⟩
          · rw [bare, bare, firstBare, lastBare, Option.map_some, Option.map_some, stepBare]
          · simpa [marks] using marked.append (stepMarked.start_le (Nat.le_succ m))
        | _ => exact .ok single there (.token _ e f tails)
      | _ => exact .ok single there (.token _ e f tails)
    | word other e f tails =>
      cases other <;> exact .ok single there (.word (by constructor) e f tails)

/-- The prompt of an `INPUT` is read alike. -/
theorem agree_readPrompt (here : source.drop n = ts) (same : SameTokens ts us) :
    Agree source (fun a b k => a = b ∧ n ≤ k) (readPrompt ts) (readPrompt us) := by
  have le := Nat.le_refl n
  cases same with
  | nil => exact .ok ⟨rfl, le⟩ here .nil
  | token t c d tails =>
    cases t with
    | string s =>
      have next := drop_succ_of_drop here
      cases tails with
      | nil => exact .refuse next _ _
      | token t e f tails =>
        cases t with
        | semicolon | comma => exact .ok ⟨rfl, by omega⟩ (drop_succ_of_drop next) tails
        | _ => exact .refuse next _ _
      | word => exact .refuse next _ _
    | _ => exact .ok ⟨rfl, le⟩ here (.token _ c d tails)
  | word other c d tails => exact .ok ⟨rfl, le⟩ here (.word other c d tails)

/-- Each name after `NEXT` is a statement in its own column. -/
theorem agree_readNextNames (here : source.drop n = ts) (same : SameTokens ts us) :
    Agree source (fun as bs k => Matched source n (as.map .run) (bs.map .run) k) (readNextNames ts)
      (readNextNames us) := by
  induction long : ts.length using Nat.strongRecOn generalizing n ts us with
  | ind size ih =>
    cases same with
    | nil => exact .refuse here _ _
    | token t c d tails =>
      cases t with
      | name name =>
        have next := drop_succ_of_drop here
        have single : Matched source n ([Command.next c (some name)].map .run)
            ([Command.next d (some name)].map .run) (n + 1) :=
          .single rfl (Mark.points_of_drop here fun _ => rfl) (.nil (Nat.le_succ n))
            (Nat.lt_succ_self n)
        cases tails with
        | nil => exact .ok single next .nil
        | token t e f tails =>
          cases t with
          | comma =>
            have shorter := length_lt_of_drop here next (Nat.le_succ n)
            refine .map (ih _ (long ▸ shorter) (drop_succ_of_drop next) tails rfl)
              (Command.next c (some name) :: ·) (Command.next d (some name) :: ·) ?_
            intro others others' k matched
            exact (single.stop_le (Nat.le_succ (n + 1))).append matched
          | _ => exact .ok single next (.token _ e f tails)
        | word other e f tails => exact .ok single next (.word other e f tails)
      | _ => exact .refuse here _ _
    | word => exact .refuse here _ _

/-- The items of a `PRINT` are read alike. -/
theorem agree_readItems (count : Nat) (here : source.drop n = ts) (same : SameTokens ts us) :
    Agree source (Paired (List.map PrintItem.bare) (List.flatMap PrintItem.marks) source n)
      (readItems count ts) (readItems count us) := by
  induction count generalizing n ts us with
  | zero => exact .exhausted here _
  | succ count ih =>
    have goOn {item item' : PrintItem} {m : Nat} {ts us : List Lexeme}
        (first : Paired PrintItem.bare PrintItem.marks source n item item' m)
        (there : source.drop m = ts) (same : SameTokens ts us) :
        Agree source (Paired (List.map PrintItem.bare) (List.flatMap PrintItem.marks) source n)
          (readItems count ts >>= fun r => pure (item :: r.1, r.2))
          (readItems count us >>= fun r => pure (item' :: r.1, r.2)) := by
      refine .map (ih there same) (item :: ·) (item' :: ·) ?_
      rintro others others' k ⟨bares, marked⟩
      refine ⟨?_, first.2.append marked⟩
      rw [List.map_cons, List.map_cons, first.1, bares]
    have value : Agree source
        (Paired (List.map PrintItem.bare) (List.flatMap PrintItem.marks) source n)
        (Expr.read ts >>= fun r =>
          readItems count r.2 >>= fun s => pure (.value r.1 :: s.1, s.2))
        (Expr.read us >>= fun r =>
          readItems count r.2 >>= fun s => pure (.value r.1 :: s.1, s.2)) := by
      refine .bind (Expr.agree_read here same) ?_
      rintro e e' k rest rest' ⟨bares, marked⟩ there same
      exact goOn ⟨congrArg PrintItem.value bares, marked⟩ there same
    rw [readItems, readItems, ← same.atEnd_eq]
    by_cases ends : Lexeme.atEnd ts = true
    · rw [if_pos ends, if_pos ends]
      exact .ok ⟨rfl, .nil (Nat.le_refl n)⟩ here same
    · rw [if_neg ends, if_neg ends]
      cases same with
      | nil => exact absurd rfl ends
      | token t c d tails =>
        cases t with
        | semicolon | comma =>
          refine goOn ⟨rfl, .single ?_ (Nat.lt_succ_self n)⟩ (drop_succ_of_drop here) tails
          exact Mark.points_of_drop here fun _ => rfl
        | _ => exact value
      | word => exact value

/-- An assignment is read alike, and has the column of its `LET` or of the name it assigns to. -/
theorem agree_readAssign (c d : Span) (here : source.drop n = ts) (same : SameTokens ts us) :
    Agree source (fun a b k => Paired bare marks source n a b k ∧ n < k ∧
      ∃ name e, a.mark = .assignment c name ∧ source[n]? = some ⟨.name name, e⟩)
      (readAssign c ts) (readAssign d us) := by
  refine .bind (Target.agree_read here same) ?_
  rintro target target' k rest rest' ⟨⟨targetBare, targetMarked⟩, lt, e, named⟩ there same
  refine .expect rfl there same fun rest rest' there same => ?_
  refine .map (Expr.agree_read there same) (assign c target) (assign d target') ?_
  rintro value value' m ⟨valueBare, valueMarked⟩
  have le := valueMarked.le
  refine ⟨⟨?_, ?_⟩, by omega, target.ident, e, rfl, named⟩
  · rw [bare, bare, targetBare, valueBare]
  · exact targetMarked.append (valueMarked.start_le (Nat.le_succ k))

/-- An `ON` is read alike. -/
theorem agree_readOn (c d : Span) (here : source.drop n = ts) (same : SameTokens ts us) :
    Agree source (Under (.keyword c .ON) source n) (readOn c ts) (readOn d us) := by
  refine .bind (Expr.agree_read here same) ?_
  rintro selector selector' k rest rest' ⟨bares, marked⟩ there same
  have goto {ts us : List Lexeme} (there : source.drop (k + 1) = ts) (same : SameTokens ts us) :
      Agree source (Under (.keyword c .ON) source n)
        (readLines ts >>= fun r => pure (onGoto c selector r.1, r.2))
        (readLines us >>= fun r => pure (onGoto d selector' r.1, r.2)) := by
    refine .map (agree_readLines there same) (onGoto c selector) (onGoto d selector') ?_
    rintro lines _ m ⟨rfl, le⟩
    exact ⟨rfl, by rw [bare, bare, bares], marked.stop_le (by omega)⟩
  have gosub {ts us : List Lexeme} (there : source.drop (k + 1) = ts) (same : SameTokens ts us) :
      Agree source (Under (.keyword c .ON) source n)
        (readLines ts >>= fun r => pure (onGosub c selector r.1, r.2))
        (readLines us >>= fun r => pure (onGosub d selector' r.1, r.2)) := by
    refine .map (agree_readLines there same) (onGosub c selector) (onGosub d selector') ?_
    rintro lines _ m ⟨rfl, le⟩
    exact ⟨rfl, by rw [bare, bare, bares], marked.stop_le (by omega)⟩
  cases same with
  | nil => exact .refuse there _ _
  | token t e f tails =>
    cases t with
    | word w =>
      cases w with
      | GOTO | GO_TO => exact goto (drop_succ_of_drop there) tails
      | GOSUB | GO_SUB => exact gosub (drop_succ_of_drop there) tails
      | _ => exact .refuse there _ _
    | _ => exact .refuse there _ _
  | word other e f tails =>
    cases other with
    | goto | goTo => exact goto (drop_succ_of_drop there) tails
    | gosub | goSub => exact gosub (drop_succ_of_drop there) tails
    | _ => exact .refuse there _ _

/-- A `RESTORE` is read alike. -/
theorem agree_readRestore (c d : Span) (here : source.drop n = ts) (same : SameTokens ts us) :
    Agree source (Under (.keyword c .RESTORE) source n) (readRestore c ts) (readRestore d us) := by
  have none : Under (.keyword c .RESTORE) source n (.restore c none) (.restore d none) n :=
    ⟨rfl, rfl, .nil (Nat.le_refl n)⟩
  have some : Agree source (Under (.keyword c .RESTORE) source n)
      (Lexeme.lineNumber ts >>= fun r => pure (.restore c (some r.1), r.2))
      (Lexeme.lineNumber us >>= fun r => pure (.restore d (some r.1), r.2)) := by
    refine .map (Lexeme.agree_lineNumber here same) (fun number => restore c (some number))
      (fun number => restore d (some number)) ?_
    rintro number _ k ⟨rfl, rfl, -⟩
    exact ⟨rfl, rfl, .nil (Nat.le_succ n)⟩
  cases same with
  | nil => exact .ok none here .nil
  | token t e f tails =>
    cases t with
    | number | string => exact some
    | _ => exact .ok none here (.token _ e f tails)
  | word other e f tails => exact .ok none here (.word other e f tails)

/-- A remark is read alike. -/
theorem agree_remark (c d : Span) (here : source.drop n = ts) (same : SameTokens ts us) :
    Agree source (Under (.keyword c .REM) source n) (readSingle ts .REM c ts)
      (readSingle us .REM d us) := by
  have remark {k : Nat} (le : n ≤ k) :
      Under (.keyword c .REM) source n (.remark c) (.remark d) k := ⟨rfl, rfl, .nil le⟩
  have le := Nat.le_refl n
  cases same with
  | nil => exact .ok (remark le) here .nil
  | token t e f tails =>
    cases t with
    | remark s => exact .ok (remark (Nat.le_succ n)) (drop_succ_of_drop here) tails
    | _ => exact .ok (remark le) here (.token _ e f tails)
  | word other e f tails => exact .ok (remark le) here (.word other e f tails)

/-- One command, read after a keyword that may be spelled differently in the first line. -/
theorem agree_readSingle {v : Word} {c : Span} (w : Word) (d : Span) (whole : List Lexeme)
    (here : source.drop n = ⟨.word v, c⟩ :: ts) (spelled : v.usual = w.usual)
    (same : SameTokens ts us) :
    Agree source (fun a b k => Matched source n ([a].map .run) ([b].map .run) k)
      (readSingle (⟨.word v, c⟩ :: ts) w c ts) (readSingle whole w d us) := by
  have next := drop_succ_of_drop here
  have keyword : (Mark.keyword c w.usual).Points source n :=
    Mark.points_of_drop here fun _ => congrArg Token.word spelled
  -- All but `GOTO`, `LET` and what opens no statement have the column of their keyword.
  have under {x y : Except Refusal (WithRest Command)}
      (agree : Agree source (Under (.keyword c w.usual) source (n + 1)) x y) :
      Agree source (fun a b k => Matched source n ([a].map .run) ([b].map .run) k) x y :=
    agree.imp fun a b k good => good.matched keyword
  cases w with
  | CLEAR | END | RETURN | STOP =>
    exact under (.ok ⟨rfl, rfl, .nil (Nat.le_refl (n + 1))⟩ next same)
  | DATA =>
    refine under (.map (agree_readData next same) (data c) (data d) ?_)
    rintro items _ k ⟨rfl, le⟩
    exact ⟨rfl, rfl, .nil le⟩
  | DEF => exact under (agree_readDefine c d next same)
  | DIM => exact under (agree_readDimension c d next same)
  | FOR => exact under (agree_readLoop c d next same)
  | GOSUB | GO_SUB =>
    refine under (.map (Lexeme.agree_lineNumber next same) (gosub c) (gosub d) ?_)
    rintro number _ k ⟨rfl, rfl, -⟩
    exact ⟨rfl, rfl, .nil (Nat.le_succ (n + 1))⟩
  | GOTO | GO_TO =>
    refine .map (Lexeme.agree_lineNumber next same) (goto c) (goto d) ?_
    rintro number _ k ⟨rfl, rfl, -⟩
    have jumps : (Mark.jump c number).Points source n :=
      Mark.points_of_drop here fun _ => .inl (congrArg Token.word spelled)
    exact Under.matched ⟨rfl, rfl, .nil (Nat.le_succ (n + 1))⟩ jumps
  | INPUT =>
    refine under (.bind (agree_readPrompt next same) ?_)
    rintro prompt _ k rest rest' ⟨rfl, le⟩ there rests
    dsimp only
    rw [rests.length_eq]
    refine .map (Target.agree_readList _ there rests) (input c prompt) (input d prompt) ?_
    rintro targets targets' m ⟨bares, marked⟩
    exact ⟨rfl, by rw [bare, bare, bares], marked.start_le le⟩
  | LET =>
    refine (agree_readAssign c d next same).imp ?_
    rintro a b k ⟨paired, -, name, -, mark, -⟩
    exact Under.matched ⟨mark, paired⟩
      (Mark.points_of_drop here fun _ => .inl (congrArg Token.word spelled))
  | ON => exact under (agree_readOn c d next same)
  | PRINT | QUESTION =>
    show Agree source _ (readItems (ts.length + 1) ts >>= fun r => pure (print c r.1, r.2))
      (readItems (us.length + 1) us >>= fun r => pure (print d r.1, r.2))
    rw [same.length_eq]
    refine under (.map (agree_readItems _ next same) (print c) (print d) ?_)
    rintro items items' k ⟨bares, marked⟩
    exact ⟨rfl, by rw [bare, bare, bares], marked⟩
  | READ =>
    show Agree source _ (Target.readList (ts.length + 1) ts >>= fun r => pure (read c r.1, r.2))
      (Target.readList (us.length + 1) us >>= fun r => pure (read d r.1, r.2))
    rw [same.length_eq]
    refine under (.map (Target.agree_readList _ next same) (read c) (read d) ?_)
    rintro targets targets' k ⟨bares, marked⟩
    exact ⟨rfl, by rw [bare, bare, bares], marked⟩
  | REM | APOSTROPHE => exact under (agree_remark c d next same)
  | RESTORE => exact under (agree_readRestore c d next same)
  | IF | NEXT | ELSE | FN | STEP | THEN | TO => exact .refuse here _ _

/-- An assignment without `LET` starts with a name, and no `LET` stands before it. -/
theorem agree_implied {i : Ident} {c : Span} (d : Span)
    (here : source.drop n = ⟨.name i, c⟩ :: ts) (same : SameTokens ts us)
    (starts : Mark.before source n ≠ some (.word .LET)) :
    Agree source (fun a b k => Matched source n ([a].map .run) ([b].map .run) k)
      (readAssign c (⟨.name i, c⟩ :: ts)) (readAssign d (⟨.name i, d⟩ :: us)) := by
  refine (agree_readAssign c d here (.token _ c d same)).imp ?_
  rintro a b k ⟨⟨bares, marked⟩, lt, name', e, mark, named⟩
  have points : a.mark.Points source n := by
    rw [getElem?_of_drop here] at named
    cases named
    rw [mark]
    exact ⟨_, getElem?_of_drop here, rfl, .inr ⟨starts, rfl⟩⟩
  exact .single (congrArg Statement.run bares) points marked lt

/-- A statement is read alike, unless it starts behind a `LET`. -/
theorem agree_readStatement (here : source.drop n = ts) (same : SameTokens ts us)
    (starts : Mark.before source n ≠ some (.word .LET)) :
    Agree source (fun as bs k => Matched source n (as.map .run) (bs.map .run) k) (readStatement ts)
      (readStatement us) := by
  cases same with
  | nil => exact .refuse here _ _
  | token t c d tails =>
    have next := drop_succ_of_drop here
    cases t with
    | name i => exact .map (agree_implied d here tails starts) ([·]) ([·]) fun _ _ _ => id
    | word w =>
      cases w with
      | NEXT =>
        have plain : Matched source n ([Command.next c none].map .run)
            ([Command.next d none].map .run) (n + 1) :=
          .single rfl (Mark.points_of_drop here fun _ => rfl) (.nil (Nat.le_succ n))
            (Nat.lt_succ_self n)
        cases tails with
        | nil => exact .ok plain next .nil
        | token t e f tails =>
          cases t with
          | name name =>
            refine (agree_readNextNames next (.token _ e f tails)).imp fun as bs k matched => ?_
            exact (Statement.Matched.nil (Nat.le_succ n)).append matched
          | _ => exact .ok plain next (.token _ e f tails)
        | word other e f tails => exact .ok plain next (.word other e f tails)
      | _ => exact .map (agree_readSingle _ d _ here rfl tails) ([·]) ([·]) fun _ _ _ => id
    | _ => exact .refuse here _ _
  | word other c d tails =>
    cases other <;>
      exact .map (agree_readSingle _ d source here rfl tails) ([·]) ([·]) fun _ _ _ => id

end Command

end NumberedBasic
