import NumberedBasic.Proofs.BlockReading
import NumberedBasic.Proofs.Layout
import NumberedBasic.Proofs.Rescanning

/-!
# Reading with every assumption checked

In some places the interpreter relies on a fact without looking: a name that goes on has another
character, the operator between two operands is not `NOT`, an `IF` or an `ELSE` stands where a
target is filled in, and a fault that is given a line, columns or a detail has none yet.

Each function that relies on such a fact has a variant here that looks, and stops with the
`Assumption` where the fact does not hold. What has to be shown is that the variants never stop and
that they read what the functions they stand for read: `scanLine_eq` for the tokens of a line and
`parse_eq` for its statements. Expressions are read without checks in between, because
`operators_eq` is about every operand and all that can follow it, wherever it stands.
-/

set_option autoImplicit false

namespace NumberedBasic

/-- What the interpreter relies on without looking. -/
inductive Assumption where
  | nameGoesOn
  | operatorIsBinary
  | branchAt (index : Nat)
  | lineIsOpen
  | columnIsOpen
  | detailIsOpen
  deriving DecidableEq, Repr

/-- A computation that stops at the first assumption that does not hold. -/
abbrev Checked (α : Type) := Except Assumption α

namespace Checked

/-- Looks whether an assumption holds. -/
def ensure (assumption : Assumption) (holds : Bool) : Checked Unit :=
  if holds then .ok () else .error assumption

/-- A computation comes to its end exactly if what it relies on holds. -/
theorem ensure_bind_eq_ok {α : Type} {assumption : Assumption} {holds : Bool} {a : α} :
    (ensure assumption holds >>= fun _ => pure a) = .ok a ↔ holds = true := by
  cases holds with
  | true => exact ⟨fun _ => rfl, fun _ => rfl⟩
  | false => exact ⟨nofun, nofun⟩

/-! ## Faults -/

/-- Places a fault in a line, if it has none. -/
def inLine (fault : Fault) (line : Option LineNumber) : Checked Fault := do
  ensure .lineIsOpen fault.line.isNone
  return fault.inLine line

/-- Places a fault in the columns of a line, if it has none. -/
def inColumn (fault : Fault) (column : Span) : Checked Fault := do
  ensure .columnIsOpen (fault.column == Span.none)
  return fault.inColumn column

/-- Adds a detail to a fault, if it has none. -/
def withDetail (fault : Fault) (detail : String) : Checked Fault := do
  ensure .detailIsOpen fault.detail.isEmpty
  return fault.withDetail detail

section Fault

variable {fault : Fault}

/-- A fault can be placed in a line exactly if it has none. -/
theorem inLine_eq_ok {line : Option LineNumber} :
    inLine fault line = .ok (fault.inLine line) ↔ fault.line = none :=
  ensure_bind_eq_ok.trans Option.isNone_iff_eq_none

/-- A fault can be placed in columns exactly if it has none. -/
theorem inColumn_eq_ok {column : Span} :
    inColumn fault column = .ok (fault.inColumn column) ↔ fault.column = Span.none :=
  ensure_bind_eq_ok.trans beq_iff_eq

/-- A fault can be given a detail exactly if it has none. -/
theorem withDetail_eq_ok {detail : String} :
    withDetail fault detail = .ok (fault.withDetail detail) ↔ fault.detail.isEmpty = true :=
  ensure_bind_eq_ok

end Fault

/-- Raises a fault. It is given those of a line, columns and a detail that are known, one after the
other. -/
def raise (code : Code) (line : Option (Option LineNumber)) (column : Option Span)
    (detail : Option String) : Checked Fault := do
  let fault ← line.elim (pure { code }) (inLine { code })
  let fault ← column.elim (pure fault) (inColumn fault)
  detail.elim (pure fault) (withDetail fault)

/-- A fault is raised with what is known of it. -/
theorem raise_eq (code : Code) (line : Option (Option LineNumber)) (column : Option Span)
    (detail : Option String) :
    raise code line column detail =
      .ok { code, line := line.getD none, column := column.getD Span.none,
            detail := detail.getD "" } := by
  cases line <;> cases column <;> cases detail <;> rfl

/-! ## Tokens -/

/-- A name goes on before these characters; `digit` says whether it holds a digit already. -/
def goesOn (digit : Bool) (cs : List Char) : Bool :=
  cs.head?.any fun d => (d.isAlpha && !digit) || d.isDigit || d == '$'

/-- Reads on through a name. It must have a character whenever it goes on. -/
def takeName (seen : List Char) (digit : Bool) : List Char → Checked (Token × List Char)
  | [] => .error .nameGoesOn
  | c :: cs =>
    let seen := seen ++ [c.toUpper]
    let digit := digit || c.isDigit
    match Token.ofSpelling? seen with
    | some t => .ok (t, cs)
    | none =>
      if c == '$' then .ok (.name (.text (String.ofList seen)), cs)
      else if goesOn digit cs then takeName seen digit cs
      else .ok (.name (.plain (String.ofList seen)), cs)

/-- A name that starts with a character has one whenever it goes on. -/
theorem takeName_eq (seen : List Char) (digit : Bool) (c : Char) (cs : List Char) :
    takeName seen digit (c :: cs) = .ok (Token.takeName seen digit c cs) := by
  unfold takeName Token.takeName
  dsimp only
  cases Token.ofSpelling? (seen ++ [c.toUpper]) with
  | some t => rfl
  | none =>
      by_cases dollar : c == '$'
      · simp only [dollar, if_true]
      simp only [dollar]
      cases cs with
      | nil => rfl
      | cons d rest =>
          -- the character that was looked at is the one the name goes on with
          rw [takeName_eq _ _ d rest]
          exact (apply_ite Except.ok _ _ _).symm

/-- The token at the front of a text; only a name relies on anything. -/
def next (mode : Token.Mode) (c : Char) (cs : List Char) :
    Checked (Token × Token.Mode × List Char) :=
  if mode = .statements ∧ c.isAlpha then do
    let (t, rest) ← takeName [] false (c :: cs)
    return (t, mode.after t, rest)
  else .ok (Token.next mode c cs)

/-- The checks never stop the scanner at a token. -/
theorem next_eq (mode : Token.Mode) (c : Char) (cs : List Char) :
    next mode c cs = .ok (Token.next mode c cs) := by
  unfold next
  split
  next name =>
    obtain ⟨rfl, alpha⟩ := name
    rw [takeName_eq, Token.next_of_alpha alpha]
    rfl
  next => rfl

/-- The tokens of a text, in order. -/
def scan (mode : Token.Mode) : List Char → Checked (List Token)
  | [] => .ok []
  | c :: cs =>
    match _found : next mode c cs with
    | .error assumption => .error assumption
    | .ok (t, after, rest) => do return t :: (← scan after rest)
termination_by cs => cs.length
decreasing_by
  rw [next_eq] at _found
  have shorter := Token.length_next_le mode c cs
  rw [Except.ok.inj _found] at shorter
  exact Nat.lt_succ_of_le shorter

/-- The checks never stop the scanner before the end of a text. -/
theorem scan_eq (mode : Token.Mode) (cs : List Char) :
    scan mode cs = .ok (Token.scan mode cs) := by
  induction mode, cs using Token.scan.induct with
  | case1 mode =>
      rw [scan, Token.scan]
  | case2 mode c cs found ih =>
      rw [scan]
      split
      next stopped =>
        rw [next_eq] at stopped
        cases stopped
      next t after rest taken =>
        rw [next_eq] at taken
        have same : found = (t, after, rest) := Except.ok.inj taken
        rw [same] at ih
        rw [ih, Token.scan]
        simp only [found] at same
        rw [same]
        rfl

/-- The number of a line, if it has one, and its tokens. -/
def scanLine (cs : List Char) : Checked (Option LineNumber × List Token) := do
  let (line, rest) := Token.takeLineNumber cs
  let tokens ← scan .statements rest
  return (line, Token.mergeSigns (Token.mergeGo (Token.trimEnd tokens ++ [.endOfLine])))

/-- Scanning a line with checks yields the tokens that it has without them. -/
theorem scanLine_eq (cs : List Char) : scanLine cs = .ok (Token.scanLine cs) := by
  unfold scanLine
  simp only [scan_eq]
  rfl

/-! ## Readings -/

/-- A reader that stops at assumptions, apart from what it refuses. -/
def Reading (α : Type) : Type :=
  Cursor → Checked (Except Fault α × Cursor)

instance : Monad Reading where
  pure a := fun cursor => .ok (.ok a, cursor)
  bind x f := fun cursor => do
    match ← x cursor with
    | (.ok a, cursor) => f a cursor
    | (.error fault, cursor) => .ok (.error fault, cursor)

/-- A reader that relies on nothing. -/
def plain {α : Type} (x : Reader α) : Reading α :=
  fun cursor => .ok (x cursor)

/-- A check in the middle of a reader. -/
def during {α : Type} (x : Checked α) : Reading α :=
  fun cursor => do return (.ok (← x), cursor)

/-- Two parts never stop if neither of them does. -/
theorem bind_plain {α β : Type} {x : Reading α} {y : Reader α} {f : α → Reading β}
    {g : α → Reader β} {cursor : Cursor} (first : x cursor = .ok (y cursor))
    (second : ∀ a cursor', y cursor = (.ok a, cursor') → f a cursor' = .ok (g a cursor')) :
    (x >>= f) cursor = .ok ((y >>= g) cursor) := by
  change (x cursor >>= _) = _
  rw [first]
  cases done : y cursor with
  | mk result cursor' =>
    cases result with
    | error fault =>
      rw [Reader.bind_of_error done]
      rfl
    | ok a =>
      rw [Reader.bind_of_ok done]
      exact second a cursor' done

/-- Both ways of a test never stop. -/
theorem ite_plain {α : Type} {p : Prop} [Decidable p] {x x' : Reading α} {y y' : Reader α}
    {cursor : Cursor} (holds : p → x cursor = .ok (y cursor))
    (fails : ¬p → x' cursor = .ok (y' cursor)) :
    (if p then x else x') cursor = .ok ((if p then y else y') cursor) := by
  by_cases h : p
  · rw [if_pos h, if_pos h]
    exact holds h
  · rw [if_neg h, if_neg h]
    exact fails h

/-- A check that succeeds is passed over. -/
theorem during_bind {α β : Type} {x : Checked α} {a : α} {f : α → Reading β} {cursor : Cursor}
    (h : x = .ok a) : (during x >>= f) cursor = f a cursor := by
  rw [h]
  rfl

/-! ## Operators -/

/-- Joins two operands with an operator, which must not be `NOT`. -/
def join (column : Span) (op : Operator) (left right : Expr) : Checked Expr :=
  match op with
  | .binary op => .ok (.binary column op left right)
  | .not => .error .operatorIsBinary

/-- Extends `left` by the operators that follow and bind tighter than `level`. -/
def operators : Nat → Nat → Expr → Reading Expr
  | 0, _, _ => plain Reader.exhausted
  | depth + 1, level, left => do
    match ← plain Reader.peek with
    | some (.operator op) =>
      if op.level ≤ level then return left
      else do
        let _ ← plain Reader.next
        let column ← plain Reader.column
        let right ← plain (Reader.expressionAt depth op.level)
        operators depth level (← during (join column op left right))
    | _ => return left

/-- No operand is extended by `NOT`, at any level. -/
theorem operators_eq (depth level : Nat) (left : Expr) (cursor : Cursor) :
    operators depth level left cursor = .ok (Reader.operators depth level left cursor) := by
  induction depth generalizing left cursor with
  | zero => rfl
  | succ depth ih =>
    refine bind_plain rfl fun t cursor _ => ?_
    cases t with
    | none => rfl
    | some t =>
      cases t with
      | operator op =>
        refine ite_plain (fun _ => rfl) fun tighter => ?_
        refine bind_plain rfl fun _ _ _ => bind_plain rfl fun column _ _ => ?_
        refine bind_plain rfl fun right _ _ => ?_
        cases op with
        | not => exact absurd (Nat.zero_le level) tighter
        | binary op => exact (during_bind rfl).trans (ih _ _)
      | _ => rfl

/-! ## Statements -/

/-- A reader that appends what it reads to the statements already read. -/
abbrev Extender := Array Statement → Reading (Array Statement)

/-- Fills in the target of the statement at `index`, which must be an `IF` or an `ELSE`. -/
def setTarget (code : Array Statement) (index target : Nat) : Checked (Array Statement) := do
  ensure (.branchAt index) (code[index]?.any fun statement => statement.target?.isSome)
  return Statement.setTarget code index target

/-- Reads a branch with `extend`. -/
def branch (extend : Extender) : Extender := fun code => do
  match ← plain Reader.peek with
  | some (.number _) => do
    let column ← plain Reader.column
    let line ← plain Reader.lineNumber
    extend (code.push (.run (.goto column line)))
  | _ => extend code

/-- Reads what follows the predicate of an `IF`. -/
def outcome (extend : Extender) : Extender := fun code => do
  match ← plain Reader.next with
  | some (.word .THEN) => branch extend code
  | some (.word .GOTO) | some (.word .GO_TO) => do
    let column ← plain Reader.column
    let line ← plain Reader.lineNumber
    extend (code.push (.run (.goto column line)))
  | _ => plain (Reader.refuse "EXPECTED THEN")

/-- Reads an `IF` after its keyword. -/
def conditional (extend : Extender) (column : Span) : Extender := fun code => do
  let predicate ← plain Reader.expression
  let ifIndex := code.size
  let code ← outcome extend (code.push (.branch column predicate 0))
  match ← plain Reader.peek with
  | some (.word .ELSE) => do
    let _ ← plain Reader.next
    let elseIndex := code.size
    let code := code.push (.skip (← plain Reader.column) 0)
    let code ← branch extend (← during (setTarget code ifIndex (elseIndex + 1)))
    during (setTarget code elseIndex code.size)
  | _ => during (setTarget code ifIndex code.size)

/-- Reads the statement that a keyword starts; only an `IF` relies on anything. -/
def keyword (extend : Extender) (word : Word) : Extender := fun code => do
  let column ← plain Reader.column
  match word with
  | .IF => conditional extend column code
  | .NEXT => return code ++ (← plain (Reader.nextNames column)).map Statement.run
  | _ => return code.push (.run (← plain (Reader.command word column)))

/-- Reads a statement. -/
def statement (extend : Extender) : Extender := fun code => do
  match ← plain Reader.peek with
  | some (.name _) => keyword extend .LET code
  | some (.word word) => do
    let _ ← plain Reader.next
    keyword extend word code
  | _ => do
    let _ ← plain Reader.next
    plain (Reader.refuse "EXPECTED STATEMENT")

/-- Reads statements up to the end of the line or an `ELSE`. -/
def readStatements : Nat → Extender
  | 0, _ => plain Reader.exhausted
  | depth + 1, code => do
    match ← plain Reader.peek with
    | none | some .endOfLine | some (.word .ELSE) => return code
    | some .colon => do
      let _ ← plain Reader.next
      readStatements depth code
    | _ => do
      let code ← statement (readStatements depth) code
      if ← plain Reader.atEnd then readStatements depth code
      else do
        let _ ← plain Reader.next
        plain (Reader.refuse "UNEXPECTED TOKEN")

/-- The statements of a line. One that is refused has its fault placed in columns, then in the
line. -/
def parse (line : Option LineNumber) (tokens : List Token) :
    Checked (Except Fault (List Statement)) := do
  let start := Cursor.start tokens
  match ← readStatements (start.remaining + 1) #[] start with
  | (.error fault, cursor) => do
    let fault ← inColumn fault cursor.column
    return .error (← inLine fault line)
  | (.ok code, cursor) =>
    match cursor.next with
    | (none, _) | (some .endOfLine, _) => return .ok code.toList
    | (some _, cursor) => do
      let fault ← raise .syntaxError none (some cursor.column) (some "ELSE WITHOUT IF")
      return .error (← inLine fault line)

section Statements

variable {extend : Reader.Extender} {checked : Extender} {code code' : Array Statement}

/-- A target is filled in exactly where an `IF` or an `ELSE` stands. -/
theorem setTarget_eq_ok {index target : Nat} :
    setTarget code index target = .ok (Statement.setTarget code index target) ↔
      ∃ statement, code[index]? = some statement ∧ statement.target?.isSome = true :=
  ensure_bind_eq_ok.trans (Option.any_eq_true _ _)

/-- What stood before statements were appended still stands. -/
theorem getElem?_of_append {after : List Statement} (laid : code'.toList = code.toList ++ after)
    {index : Nat} {statement : Statement} (stands : code[index]? = some statement) :
    code'[index]? = some statement := by
  rw [← Array.getElem?_toList] at stands ⊢
  rw [laid]
  exact List.getElem?_append_left (List.getElem?_eq_some_iff.mp stands).1 ▸ stands

/-- A reader that leaves the statements already read in their places. -/
def Appends (extend : Reader.Extender) : Prop :=
  ∀ {code code' : Array Statement} {cursor cursor' : Cursor},
    extend code cursor = (.ok code', cursor') → ∃ after, code'.toList = code.toList ++ after

/-- A variant that never stops. -/
def Clears (checked : Extender) (extend : Reader.Extender) : Prop :=
  ∀ code cursor, checked code cursor = .ok (extend code cursor)

/-- An `IF` is read with checks like without them, if the statements of its outcomes are. -/
theorem Clears.branch (clears : Clears checked extend) :
    Clears (branch checked) (Reader.branch extend) := by
  intro code cursor
  refine bind_plain rfl fun t cursor _ => ?_
  cases t with
  | none => exact clears _ _
  | some t =>
    cases t with
    | number s =>
      exact bind_plain rfl fun _ _ _ => bind_plain rfl fun _ _ _ => clears _ _
    | _ => exact clears _ _

/-- An outcome is read with checks like without them, if its statements are. -/
theorem Clears.outcome (clears : Clears checked extend) :
    Clears (outcome checked) (Reader.outcome extend) := by
  intro code cursor
  refine bind_plain rfl fun t cursor _ => ?_
  cases t with
  | none => rfl
  | some t =>
    cases t with
    | word word =>
      cases word with
      | THEN => exact clears.branch _ _
      | GOTO | GO_TO =>
        exact bind_plain rfl fun _ _ _ => bind_plain rfl fun _ _ _ => clears _ _
      | _ => rfl
    | _ => rfl

/-- The targets of an `IF` and of its `ELSE` are filled in where they stand, because what is read in
between is appended behind them. -/
theorem Clears.conditional (clears : Clears checked extend)
    (branch : Appends (Reader.branch extend)) (outcome : Appends (Reader.outcome extend))
    (column : Span) : Clears (conditional checked column) (Reader.conditional extend column) := by
  intro code cursor
  refine bind_plain rfl fun predicate cursor _ => ?_
  refine bind_plain (clears.outcome _ _) fun body cursor readYes => ?_
  obtain ⟨after, laidYes⟩ := outcome readYes
  have ifStands : body[code.size]? = some (.branch column predicate 0) :=
    getElem?_of_append laidYes Array.getElem?_push_size
  refine bind_plain rfl fun t cursor _ => ?_
  have alone : during (setTarget body code.size body.size) cursor =
      .ok (.ok (Statement.setTarget body code.size body.size), cursor) := by
    rw [setTarget_eq_ok.mpr ⟨_, ifStands, rfl⟩]
    rfl
  cases t with
  | none => exact alone
  | some t =>
    cases t with
    | word word =>
      cases word with
      | ELSE =>
        refine bind_plain rfl fun _ _ _ => bind_plain rfl fun elseColumn cursor _ => ?_
        have inside : code.size < body.size := (Array.getElem?_eq_some_iff.mp ifStands).1
        have ifStays := getElem?_of_append (Array.toList_push (x := .skip elseColumn 0)) ifStands
        refine (during_bind (setTarget_eq_ok.mpr ⟨_, ifStays, rfl⟩)).trans ?_
        refine bind_plain (clears.branch _ _) fun whole cursor readNo => ?_
        obtain ⟨others, laidNo⟩ := branch readNo
        have elseStands : whole[body.size]? = some (.skip elseColumn 0) := by
          refine getElem?_of_append laidNo ?_
          rw [Statement.setTarget, Array.getElem?_modify, if_neg (Nat.ne_of_lt inside)]
          exact Array.getElem?_push_size
        rw [setTarget_eq_ok.mpr ⟨_, elseStands, rfl⟩]
        rfl
      | _ => exact alone
    | _ => exact alone

/-- Every statement is read without stopping. -/
theorem Clears.statement (clears : Clears checked extend)
    (branch : Appends (Reader.branch extend)) (outcome : Appends (Reader.outcome extend)) :
    Clears (statement checked) (Reader.statement extend) := by
  have keyword : ∀ word, Clears (keyword checked word) (Reader.keyword extend word) := by
    intro word code cursor
    refine bind_plain rfl fun column cursor _ => ?_
    cases word with
    | IF => exact clears.conditional branch outcome column code cursor
    | _ => exact bind_plain rfl fun _ _ _ => rfl
  intro code cursor
  refine bind_plain rfl fun t cursor _ => ?_
  cases t with
  | none => exact bind_plain rfl fun _ _ _ => rfl
  | some t =>
    cases t with
    | name i => exact keyword .LET code cursor
    | word word => exact bind_plain rfl fun _ cursor _ => keyword word code cursor
    | _ => exact bind_plain rfl fun _ _ _ => rfl

/-- Behind a statement reading goes on, or is refused. -/
theorem Clears.close (clears : Clears checked extend) {x : Reading (Array Statement)}
    {y : Reader (Array Statement)} {cursor : Cursor} (first : x cursor = .ok (y cursor)) :
    (do
      let code ← x
      if ← plain Reader.atEnd then checked code
      else do
        let _ ← plain Reader.next
        plain (Reader.refuse "UNEXPECTED TOKEN") : Reading (Array Statement)) cursor =
    .ok ((do
      let code ← y
      if ← Reader.atEnd then extend code
      else do
        let _ ← Reader.next
        Reader.refuse "UNEXPECTED TOKEN" : Reader (Array Statement)) cursor) := by
  refine bind_plain first fun code cursor _ => bind_plain rfl fun ended cursor _ => ?_
  exact ite_plain (fun _ => clears code cursor) fun _ => bind_plain rfl fun _ _ _ => rfl

/-- A reader that follows a reading which appends, appends as well. -/
theorem appends_of_extends {extend' : Statement.Extender}
    (follows : ∀ width, Reader.Extends width extend extend')
    (laid : ∀ {ts rest code code'}, extend' ts code = .ok (code', rest) →
      ∃ after, code'.toList = code.toList ++ after) : Appends extend := by
  intro code code' cursor cursor' read
  have follow : Follows _ _ (extend code cursor) (extend' cursor.ahead code) :=
    follows _ code (Cursor.before_ahead cursor)
  rw [read] at follow
  generalize reading : extend' cursor.ahead code = y at follow
  cases follow with
  | ok left => exact laid reading

/-- Statements are read with checks like without them, however deeply they are nested. -/
theorem clears_readStatements (depth : Nat) :
    Clears (readStatements depth) (Reader.statements depth) := by
  induction depth with
  | zero => exact fun _ _ => rfl
  | succ depth ih =>
    have appends : Block.Appends (Statement.readTo depth) := Block.appends_readTo depth
    have branch : Appends (Reader.branch (Reader.statements depth)) :=
      appends_of_extends (fun _ => (Reader.extends_statements depth).branch) fun read => by
        obtain ⟨commands, first, block, -, -, laid⟩ := appends.readBranch read
        exact ⟨_, laid⟩
    have outcome : Appends (Reader.outcome (Reader.statements depth)) :=
      appends_of_extends (fun _ => (Reader.extends_statements depth).outcome) fun read => by
        obtain ⟨commands, first, block, -, -, laid⟩ := appends.readOutcome read
        exact ⟨_, laid⟩
    intro code cursor
    refine bind_plain rfl fun t cursor _ => ?_
    have one := ih.close (ih.statement branch outcome code cursor)
    cases t with
    | none => rfl
    | some t =>
      cases t with
      | endOfLine => rfl
      | colon => exact bind_plain rfl fun _ _ _ => ih _ _
      | word word =>
        cases word with
        | ELSE => rfl
        | _ => exact one
      | _ => exact one

/-- A reader that refuses a line raises a fault that has no place yet. -/
theorem unplaced_of_statements {tokens : List Token} {fault : Fault} {cursor : Cursor}
    (refused : Reader.statements ((Cursor.start tokens).remaining + 1) #[] (.start tokens) =
      (.error fault, cursor)) : fault.line = none ∧ fault.column = Span.none := by
  have before := Cursor.before_start tokens
  rw [before.remaining] at refused
  generalize Lexeme.place 0 tokens = ts at before refused
  have follow : Follows _ (fun _ => Cursor.Before _) (Reader.statements (ts.length + 1) #[] _)
      (Statement.readTo (ts.length + 1) ts #[]) := Reader.extends_statements _ _ before
  rw [refused] at follow
  have failed {e : Refusal} (h : Statement.readTo (ts.length + 1) ts #[] = .error e) :
      Statement.readLine ts = .error e := by
    rw [Statement.readLine, h]
    rfl
  generalize reading : Statement.readTo (ts.length + 1) ts #[] = y at follow
  cases follow with
  | spent given => exact absurd given (Statement.unspent_readLine ts _ (failed reading))
  | refused there =>
    rcases Statement.agree_readLine (.refl ts) with
      ⟨code, -, -, read, -⟩ | ⟨refusal, -, stopped, -, -, -, unplaced, -⟩
    · cases read.symm.trans (failed reading)
    · cases stopped.symm.trans (failed reading)
      exact unplaced

/-- A line is read without relying on anything that does not hold, and a fault is placed once. -/
theorem parse_eq (line : Option LineNumber) (tokens : List Token) :
    parse line tokens = .ok (Statement.parse line tokens) := by
  unfold parse Statement.parse
  dsimp only
  rw [clears_readStatements]
  cases read : Reader.statements _ _ _ with
  | mk result cursor =>
    cases result with
    | error fault =>
      obtain ⟨noLine, noColumn⟩ := unplaced_of_statements read
      refine (bind_of_eq_ok (inColumn_eq_ok.mpr noColumn)).trans ?_
      exact bind_of_eq_ok (inLine_eq_ok.mpr noLine)
    | ok code =>
      dsimp only [bind, Except.bind]
      rcases cursor.next with ⟨_ | t, cursor⟩
      · rfl
      cases t with
      | endOfLine => rfl
      | _ => rfl

end Statements

end Checked

end NumberedBasic
