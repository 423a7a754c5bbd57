import NumberedBasic.Proofs.BlockReading
import NumberedBasic.Proofs.PairedStatements
import Mathlib.Data.List.Chain

/-!
# Where statements begin and end

A line divides into pieces: statements, `IF`s with their predicates, jumps that a line number after
`THEN` or `ELSE` or the `GOTO` of an `IF` stands for, and the colons, `THEN`s and `ELSE`s between
them. Neighbours are parted (`Role.parted`) when the second one may begin and the first one may end
where they meet, which for a statement takes a separator or an end of the line. No separator is
asked for behind a jump: a statement or an `IF` may follow at once (`Role.runsOn`). The main
statement says that a line that is accepted divides into pieces in one way, that these are what it
was read as, and that neighbours are parted everywhere else.
-/

set_option autoImplicit false

namespace NumberedBasic

/-- A reader takes lexemes off the front. -/
theorem Agree.exists_append {α : Type} {source rest : List Lexeme} {Good : α → α → Nat → Prop}
    {a : α} {y : Except Refusal (WithRest α)} (agree : Agree source Good (.ok (a, rest)) y) :
    ∃ text, source = text ++ rest := by
  cases agree with
  | @ok _ _ k _ _ _ there =>
    refine ⟨source.take k, ?_⟩
    rw [← there, List.take_append_drop]

/-- An expression is read from the front. -/
theorem Expr.exists_append_of_read {ts rest : List Lexeme} {e : Expr}
    (read : Expr.read ts = .ok (e, rest)) : ∃ text, ts = text ++ rest := by
  have agree : Agree ts _ (Expr.read ts) _ := Expr.agree_read List.drop_zero (.refl ts)
  rw [read] at agree
  exact agree.exists_append

/-- A statement is read from the front. -/
theorem Command.exists_append_of_readStatement {ts rest : List Lexeme} {commands : List Command}
    (read : Command.readStatement ts = .ok (commands, rest)) : ∃ text, ts = text ++ rest := by
  have agree : Agree ts _ (Command.readStatement ts) _ :=
    Command.agree_readStatement List.drop_zero (.refl ts) nofun
  rw [read] at agree
  exact agree.exists_append

/-- No statement is read where one may end. -/
theorem Command.atEnd_of_readStatement {ts : List Lexeme} {r : WithRest (List Command)}
    (read : Command.readStatement ts = .ok r) : Lexeme.atEnd ts = false := by
  cases ts with
  | nil => cases read
  | cons t ts =>
    obtain ⟨t, c⟩ := t
    cases t with
    | endOfLine | colon => cases read
    | word w =>
      cases w with
      | ELSE => cases read
      | _ => rfl
    | _ => rfl

/-- A line number is one lexeme. -/
theorem Lexeme.of_lineNumber {t : Lexeme} {ts rest : List Lexeme} {line : LineNumber}
    (jumps : Lexeme.lineNumber (t :: ts) = .ok (line, rest)) :
    t.token.lineNumber = .ok line ∧ ts = rest := by
  unfold Lexeme.lineNumber at jumps
  dsimp only at jumps
  cases known : t.token.lineNumber with
  | ok n =>
    rw [known] at jumps
    cases jumps
    exact ⟨rfl, rfl⟩
  | error =>
    rw [known] at jumps
    cases jumps

/-! ## Pieces -/

/-- A part of a line. -/
inductive Piece where
  | colon (column : Span)
  | thenWord (column : Span)
  | elseWord (column : Span)
  /-- A statement other than `IF`. -/
  | statement (text : List Lexeme) (commands : List Command)
  /-- An `IF` and its predicate. -/
  | condition (column : Span) (text : List Lexeme) (predicate : Expr)
  /-- A line number after `THEN` or `ELSE`. -/
  | number (text : String) (column : Span) (line : LineNumber)
  /-- The `GOTO` of an `IF`, and its line number. -/
  | goto (word : Word) (column : Span) (number : Lexeme) (line : LineNumber)

namespace Piece

/-- What a piece is in its line. -/
inductive Role where
  | colon | thenWord | elseWord | statement | condition | number | goto
  deriving DecidableEq, Repr

/-- The part that a piece plays in its line. -/
def role : Piece → Role
  | .colon _ => .colon
  | .thenWord _ => .thenWord
  | .elseWord _ => .elseWord
  | .statement .. => .statement
  | .condition .. => .condition
  | .number .. => .number
  | .goto .. => .goto

/-- The lexemes of a piece. -/
def text : Piece → List Lexeme
  | .colon c => [⟨.colon, c⟩]
  | .thenWord c => [⟨.word .THEN, c⟩]
  | .elseWord c => [⟨.word .ELSE, c⟩]
  | .statement text _ => text
  | .condition c text _ => ⟨.word .IF, c⟩ :: text
  | .number s c _ => [⟨.number s, c⟩]
  | .goto w c t _ => [⟨.word w, c⟩, t]

/-- What a piece is stored as, with its target left open. -/
def statements : Piece → List Statement
  | .colon _ => []
  | .thenWord _ => []
  | .elseWord c => [.skip c 0]
  | .statement _ commands => commands.map .run
  | .condition c _ predicate => [.branch c predicate 0]
  | .number _ c line => [.run (.goto c line)]
  | .goto _ c _ line => [.run (.goto c line)]

/-- In front of `after`, the piece is read as what it says. -/
def Stands (after : List Lexeme) : Piece → Prop
  | .statement text commands => Command.readStatement (text ++ after) = .ok (commands, after)
  | .condition _ text predicate => Expr.read (text ++ after) = .ok (predicate, after)
  | .number s _ line => (Token.number s).lineNumber = .ok line
  | .goto w _ t line => w.usual = .GOTO ∧ t.token.lineNumber = .ok line
  | _ => True

/-- Lexemes divide into pieces as far as some rest. -/
inductive Divides : List Lexeme → List Piece → List Lexeme → Prop
  | nil (rest : List Lexeme) : Divides rest [] rest
  | cons (p : Piece) {ps : List Piece} {after rest : List Lexeme} (stands : p.Stands after)
      (others : Divides after ps rest) : Divides (p.text ++ after) (p :: ps) rest

/-- Lexemes that divide in two parts divide as a whole. -/
theorem Divides.append {ts mid rest : List Lexeme} {ps qs : List Piece} (first : Divides ts ps mid)
    (second : Divides mid qs rest) : Divides ts (ps ++ qs) rest := by
  induction first with
  | nil => exact second
  | cons p stands _ ih => exact .cons p stands (ih second)

/-! ## Neighbours -/

namespace Role

/-- The pieces that one may begin behind; `none` is the start of the line. -/
def mayFollow (before : Option Role) : Role → Bool
  | .statement | .condition => before ∈ [none, some .colon, some .thenWord, some .elseWord]
  | .number => before ∈ [some .thenWord, some .elseWord]
  | .goto | .thenWord => before = some .condition
  | .colon | .elseWord => true

/-- The pieces that one may end in front of; `none` is the end of the line. -/
def mayPrecede (after : Option Role) : Role → Bool
  | .statement | .number | .goto => after ∈ [none, some .colon, some .elseWord]
  | .condition => after ∈ [some .thenWord, some .goto]
  | .colon | .thenWord | .elseWord => true

/-- A jump that has no keyword of its own. -/
def isJump : Role → Bool
  | .number | .goto => true
  | _ => false

/-- A statement, the `IF` included. -/
def isSentence : Role → Bool
  | .statement | .condition => true
  | _ => false

/-- The first piece may end, and the second one may begin, where they meet. -/
def parted (a b : Option Role) : Bool :=
  b.all (mayFollow a) && a.all (mayPrecede b)

/-- A jump with a statement right behind it. -/
def runsOn (a b : Option Role) : Bool :=
  a.any isJump && b.any isSentence

/-- How pieces meet in a line that is accepted. -/
def Meets (a b : Option Role) : Prop :=
  parted a b = true ∨ runsOn a b = true

instance : DecidableRel Meets := fun _ _ => inferInstanceAs (Decidable (_ ∨ _))

/-- A statement may begin behind this. -/
def opens : Option Role → Bool
  | some .statement | some .condition => false
  | _ => true

/-- A statement may stand wherever one may begin. -/
theorem meets_sentence {a : Option Role} {k : Role} (opened : opens a = true)
    (sentence : k.isSentence = true) : Meets a (some k) := by
  cases k with
  | statement | condition =>
    cases a with
    | none => exact .inl rfl
    | some j =>
      cases j with
      | number | goto => exact .inr rfl
      | statement | condition => cases opened
      | _ => exact .inl rfl
  | _ => cases sentence

/-- The `GOTO` of an `IF` stands behind a predicate, and a statement never does. -/
theorem not_meets_statement {a : Option Role} (meets : Meets a (some .goto)) :
    ¬Meets a (some .statement) := by
  cases a with
  | none => rcases meets with h | h <;> cases h
  | some r =>
    cases r with
    | condition => rintro (h | h) <;> cases h
    | _ => rcases meets with h | h <;> cases h

/-- At a colon, at an `ELSE` and at the end of the line anything but a predicate may end. -/
theorem meets_separator {a b : Option Role} (other : a ≠ some .condition)
    (separator : b ∈ [none, some .colon, some .elseWord]) : Meets a b := by
  have begun : b.all (mayFollow a) = true := by
    simp only [List.mem_cons, List.not_mem_nil, or_false] at separator
    rcases separator with rfl | rfl | rfl <;> rfl
  have ended : a.all (mayPrecede b) = true := by
    cases a with
    | none => rfl
    | some k =>
      cases k with
      | statement | number | goto => exact decide_eq_true separator
      | condition => exact absurd rfl other
      | _ => rfl
  refine .inl ?_
  rw [parted, begun, ended]
  rfl

end Role

open Role (Meets opens)

/-- Neighbours are related, from what stands before some pieces to what stands behind them. -/
def Chained (Related : Option Role → Option Role → Prop) (before : Option Role)
    (pieces : List Piece) (after : Option Role) : Prop :=
  List.IsChain Related (before :: (pieces.map (some ∘ role) ++ [after]))

namespace Chained

variable {Related : Option Role → Option Role → Prop} {before after : Option Role} {p : Piece}
  {ps qs : List Piece}

/-- A piece in front that is related to what is before it and to what comes next continues a
chain. -/
theorem cons (related : Related before (some p.role))
    (rest : Chained Related (some p.role) ps after) : Chained Related before (p :: ps) after :=
  .cons_cons related rest

/-- The first piece of a chain is related to what stands before it, and the others are chained
behind it. -/
theorem of_cons (chained : Chained Related before (p :: ps) after) :
    Related before (some p.role) ∧ Chained Related (some p.role) ps after :=
  List.isChain_cons_cons.mp chained

/-- Chains that meet in a piece are one chain. -/
theorem append (first : Chained Related before ps (some p.role))
    (second : Chained Related (some p.role) qs after) :
    Chained Related before (ps ++ p :: qs) after := by
  unfold Chained
  rw [List.map_append, List.append_assoc, ← List.cons_append]
  exact List.isChain_split.mpr ⟨first, second⟩

/-- Whether pieces are chained is seen from their roles. -/
theorem iff_of_roles {roles : List Role} (known : ps.map role = roles) :
    Chained Related before ps after ↔
      List.IsChain Related (before :: (roles.map some ++ [after])) := by
  rw [Chained, ← known, List.map_map]

end Chained

/-- Pieces that spell a block: lexemes divide into them, they are stored as the block is laid out,
and neighbours meet as they may, whether the line ends behind them or an `ELSE` follows. -/
structure Spells (before : Option Role) (ts : List Lexeme) (block : Block) (rest : List Lexeme)
    (pieces : List Piece) : Prop where
  divides : Divides ts pieces rest
  laid : ∀ start, (block.flatten start).map (Statement.withTarget 0) = pieces.flatMap statements
  linked : ∀ after, after = none ∨ after = some .elseWord → Chained Meets before pieces after

variable {before : Option Role} {ts after first rest : List Lexeme} {block : Block}
  {commands : List Command}

/-- A piece that is stored as some commands, in front of a block. -/
theorem Spells.cons (p : Piece) (commands : List Command) {ps : List Piece}
    (meets : Meets before (some p.role)) (stands : p.Stands after)
    (stored : p.statements = commands.map .run)
    (spells : Spells (some p.role) after block rest ps) :
    Spells before (p.text ++ after) (Block.prepend commands block) rest (p :: ps) where
  divides := .cons p stands spells.divides
  laid start := by
    rw [Block.flatten_prepend, List.map_append, spells.laid, List.flatMap_cons, stored,
      List.map_map]
    rfl
  linked after closes := .cons meets (spells.linked after closes)

/-- A branch is spelled by pieces, behind a `THEN` or an `ELSE`, if what follows its front is. -/
theorem exists_spells_branch (behind : before = some .thenWord ∨ before = some .elseWord)
    (front : Block.BranchFront ts commands first)
    (body : ∀ r, opens r = true → ∃ ps, Spells r first block rest ps) :
    ∃ ps, Spells before ts (Block.prepend commands block) rest ps := by
  cases front with
  | @jump s c ts _ line jumps =>
    obtain ⟨known, rfl⟩ := Lexeme.of_lineNumber jumps
    obtain ⟨ps, spells⟩ := body (some .number) rfl
    have meets : Meets before (some .number) := by rcases behind with rfl | rfl <;> exact .inl rfl
    exact ⟨_, spells.cons (number s c line) [.goto c line] meets known rfl⟩
  | none =>
    refine body before ?_
    rcases behind with rfl | rfl <;> rfl

/-- An outcome is spelled by pieces, behind a condition, if what follows its front is. -/
theorem exists_spells_outcome (front : Block.OutcomeFront ts commands first)
    (body : ∀ r, opens r = true → ∃ ps, Spells r first block rest ps) :
    ∃ ps, Spells (some .condition) ts (Block.prepend commands block) rest ps := by
  cases front with
  | @branch c ts _ _ front =>
    obtain ⟨ps, spells⟩ := exists_spells_branch (.inl rfl) front body
    exact ⟨_, spells.cons (thenWord c) [] (.inl rfl) trivial rfl⟩
  | @jump w c ts _ line spelled jumps =>
    obtain ⟨t, rfl⟩ := Lexeme.exists_of_lineNumber jumps
    obtain ⟨known, -⟩ := Lexeme.of_lineNumber jumps
    obtain ⟨ps, spells⟩ := body (some .goto) rfl
    have usual : w.usual = .GOTO := by rcases spelled with rfl | rfl <;> rfl
    exact ⟨_, spells.cons (goto w c t line) [.goto c line] (.inl rfl) ⟨usual, known⟩ rfl⟩

/-- What may stand before lexemes that are read: something that a statement may follow or, if they
start where a statement may end, a statement. -/
def Leads (before : Option Role) (ts : List Lexeme) : Prop :=
  opens before = true ∨ before = some .statement ∧ Lexeme.atEnd ts = true

/-- What leads to a statement is no condition. -/
theorem Leads.ne_condition (leads : Leads before ts) : before ≠ some .condition := by
  rintro rfl
  rcases leads with h | ⟨h, -⟩ <;> cases h

/-- Where a statement starts, what leads to it lets one begin. -/
theorem Leads.opens (leads : Leads before ts) (goesOn : Lexeme.atEnd ts = false) :
    opens before = true := by
  rcases leads with h | ⟨-, ends⟩
  · exact h
  · cases ends.symm.trans goesOn

/-- Every block that is read is spelled by pieces. -/
theorem exists_spells (reads : Block.Reads ts block rest) :
    ∀ before, Leads before ts → ∃ ps, Spells before ts block rest ps := by
  induction reads with
  | @done ts ends =>
    intro before leads
    refine ⟨[], .nil ts, fun _ => rfl, fun after closes => .cons_cons ?_ (.singleton _)⟩
    apply Role.meets_separator leads.ne_condition
    rcases closes with rfl | rfl <;> decide
  | @colon c ts rest block reads ih =>
    intro before leads
    obtain ⟨ps, spells⟩ := ih (some .colon) (.inl rfl)
    have meets : Meets before (some .colon) :=
      Role.meets_separator leads.ne_condition (by decide)
    exact ⟨_, spells.cons (colon c) [] meets trivial rfl⟩
  | @plain ts next rest commands block read ended reads ih =>
    -- A statement is read only in front of an end, so what follows it may follow a statement.
    intro before leads
    obtain ⟨ps, spells⟩ := ih (some .statement) (.inr ⟨rfl, ended⟩)
    obtain ⟨text, rfl⟩ := Command.exists_append_of_readStatement read
    have meets : Meets before (some .statement) :=
      Role.meets_sentence (leads.opens (Command.atEnd_of_readStatement read)) rfl
    exact ⟨_, spells.cons (statement text commands) commands meets read rfl⟩
  | @ifThen c ts outcome first rest predicate commands yes read front reads alone ih =>
    intro before leads
    obtain ⟨ps, spells⟩ := exists_spells_outcome front fun r opened => ih r (.inl opened)
    obtain ⟨text, rfl⟩ := Expr.exists_append_of_read read
    have meets : Meets before (some .condition) := Role.meets_sentence (leads.opens rfl) rfl
    refine ⟨condition c text predicate :: ps, ?_, fun start => ?_, ?_⟩
    · exact .cons (condition c text predicate) read spells.divides
    · rw [List.flatMap_cons, ← spells.laid (start + 1)]
      rfl
    · exact fun after closes => .cons meets (spells.linked after closes)
  | @ifElse c d ts outcome first branch second rest predicate commands others yes no read front
      reads elseFront elseReads ih elseIh =>
    intro before leads
    obtain ⟨ps, spells⟩ := exists_spells_outcome front fun r opened => ih r (.inl opened)
    obtain ⟨qs, otherwise⟩ :=
      exists_spells_branch (.inr rfl) elseFront fun r opened => elseIh r (.inl opened)
    obtain ⟨text, rfl⟩ := Expr.exists_append_of_read read
    have meets : Meets before (some .condition) := Role.meets_sentence (leads.opens rfl) rfl
    refine ⟨condition c text predicate :: (ps ++ elseWord d :: qs), ?_, fun start => ?_, ?_⟩
    · exact .cons (condition c text predicate) read
        (spells.divides.append (.cons (elseWord d) trivial otherwise.divides))
    · simp [Block.flatten, spells.laid, otherwise.laid, Statement.withTarget, statements]
    · exact fun after closes =>
        .cons meets (.append (spells.linked _ (.inr rfl)) (otherwise.linked after closes))

/-! ## A line divides in one way -/

/-- Nothing but what closes the line is left. -/
def LineEnds : List Lexeme → Prop
  | [] => True
  | t :: _ => t.token = .endOfLine

/-- Where reading stops and no `ELSE` is next, the line ends. -/
theorem lineEnds_of_ends (ends : Block.Ends rest) (whole : ¬Block.AtElse rest) : LineEnds rest := by
  cases rest with
  | nil => trivial
  | cons t rest =>
    obtain ⟨t, c⟩ := t
    cases t with
    | endOfLine => rfl
    | word w =>
      cases w with
      | ELSE => exact absurd trivial whole
      | _ => exact ends.elim
    | _ => exact ends.elim

/-- No piece starts where the line ends. -/
theorem Stands.not_lineEnds {p : Piece} (stands : p.Stands after) :
    ¬LineEnds (p.text ++ after) := by
  intro ended
  cases p with
  | statement text commands =>
    change LineEnds (text ++ after) at ended
    change Command.readStatement (text ++ after) = _ at stands
    generalize text ++ after = ts at ended stands
    cases ts with
    | nil => cases stands
    | cons t ts =>
      obtain ⟨t, c⟩ := t
      obtain rfl : t = .endOfLine := ended
      cases stands
  | _ => cases ended

/-- What is read as a statement is no other piece, save for the `GOTO` of an `IF`. -/
theorem eq_statement_of_stands {text after' : List Lexeme} {q : Piece}
    (stands : (statement text commands).Stands after) (stands' : q.Stands after')
    (same : text ++ after = q.text ++ after') (other : q.role ≠ .goto) :
    statement text commands = q ∧ after = after' := by
  change Command.readStatement (text ++ after) = _ at stands
  rw [same] at stands
  cases q with
  | statement text' commands' =>
    change Command.readStatement (text' ++ after') = _ at stands stands'
    rw [stands] at stands'
    cases stands'
    obtain rfl := List.append_cancel_right same
    exact ⟨rfl, rfl⟩
  | goto => exact absurd rfl other
  | _ => cases stands

/-- In front of the same lexemes and behind the same piece there is one piece at most. -/
theorem eq_of_stands {p q : Piece} {after' : List Lexeme} (meets : Meets before (some p.role))
    (meets' : Meets before (some q.role)) (stands : p.Stands after) (stands' : q.Stands after')
    (same : p.text ++ after = q.text ++ after') : p = q ∧ after = after' := by
  -- A statement begins with none of the words and signs that the other pieces begin with, save for
  -- the `GOTO` of an `IF`, and where that may stand no statement may.
  cases q with
  | statement text' commands' =>
    have other : p.role ≠ .goto := by
      intro jump
      rw [jump] at meets
      exact Role.not_meets_statement meets meets'
    obtain ⟨rfl, rfl⟩ := eq_statement_of_stands stands' stands same.symm other
    exact ⟨rfl, rfl⟩
  | condition d text' predicate' =>
    cases p with
    | statement text commands => exact eq_statement_of_stands stands stands' same nofun
    | condition c text predicate =>
      obtain ⟨head, tails⟩ : _ ∧ text ++ after = text' ++ after' := List.cons.inj same
      cases head
      change Expr.read (text ++ after) = _ at stands
      change Expr.read (text' ++ after') = _ at stands'
      rw [← tails, stands] at stands'
      cases stands'
      obtain rfl := List.append_cancel_right tails
      exact ⟨rfl, rfl⟩
    | goto =>
      cases (List.cons.inj same).1
      cases stands.1
    | _ => cases same
  | number s' d line' =>
    cases p with
    | statement text commands => exact eq_statement_of_stands stands stands' same nofun
    | number s c line =>
      cases same
      cases stands.symm.trans stands'
      exact ⟨rfl, rfl⟩
    | _ => cases same
  | goto w' d t' line' =>
    cases p with
    | statement text commands => exact absurd meets (Role.not_meets_statement meets')
    | goto w c t line =>
      cases same
      cases stands.2.symm.trans stands'.2
      exact ⟨rfl, rfl⟩
    | colon | number => cases same
    | _ =>
      cases (List.cons.inj same).1
      cases stands'.1
  | colon d =>
    cases p with
    | statement text commands => exact eq_statement_of_stands stands stands' same nofun
    | colon c =>
      cases same
      exact ⟨rfl, rfl⟩
    | _ => cases same
  | thenWord d | elseWord d =>
    cases p with
    | statement text commands => exact eq_statement_of_stands stands stands' same nofun
    | goto w c t line =>
      cases (List.cons.inj same).1
      cases stands.1
    | thenWord c | elseWord c =>
      cases same <;> exact ⟨rfl, rfl⟩
    | _ => cases same

/-- A line divides into pieces in one way. -/
theorem Divides.unique {ps qs : List Piece} {rest' : List Lexeme} (first : Divides ts ps rest)
    (second : Divides ts qs rest') (linked : Chained Meets before ps none)
    (linked' : Chained Meets before qs none) (ended : LineEnds rest) (ended' : LineEnds rest') :
    ps = qs := by
  induction first generalizing before qs with
  | nil rest =>
    cases second with
    | nil => rfl
    | cons q stands => exact absurd ended stands.not_lineEnds
  | @cons p ps after rest stands others ih =>
    -- Both divisions go on from the same piece, which decides what the next one can be.
    obtain ⟨meets, linked⟩ := linked.of_cons
    generalize whole : p.text ++ after = ts at second
    cases second with
    | nil =>
      rw [← whole] at ended'
      exact absurd ended' stands.not_lineEnds
    | @cons q qs after' _ stands' others' =>
      obtain ⟨meets', linked'⟩ := linked'.of_cons
      obtain ⟨rfl, rfl⟩ := eq_of_stands meets meets' stands stands' whole
      rw [ih others' linked linked' ended]

/-- A line that is accepted divides into pieces in one way, and these are what it was read as. Each
statement begins at the start of the line or directly behind a colon, a `THEN` or an `ELSE`, and it
ends directly before a colon, an `ELSE` or the end of the line; a predicate ends before a `THEN` or
a `GOTO`. Only behind the line number after a `THEN` or an `ELSE` and behind the `GOTO` of an `IF`
may a statement follow without a separator. -/
theorem statements_parted_save_behind_jumps {number : Option LineNumber} {tokens : List Token}
    {statements : List Statement} (accepted : Statement.parse number tokens = .ok statements) :
    ∃ pieces rest, Divides (Lexeme.place 0 tokens) pieces rest ∧ LineEnds rest ∧
      statements.map (Statement.withTarget 0) = pieces.flatMap Piece.statements ∧
      Chained Meets none pieces none ∧
      ∀ others rest', Divides (Lexeme.place 0 tokens) others rest' → LineEnds rest' →
        Chained Meets none others none → others = pieces := by
  obtain ⟨block, rest, reads, whole, rfl⟩ := Block.exists_reads_of_parse accepted
  obtain ⟨pieces, spells⟩ := exists_spells reads none (.inl rfl)
  have linked := spells.linked none (.inl rfl)
  have ended := lineEnds_of_ends reads.ends whole
  refine ⟨pieces, rest, spells.divides, ended, spells.laid 0, linked, ?_⟩
  intro others rest' divides ended' linked'
  exact divides.unique spells.divides linked' linked ended' ended

/-- `IF A GOTO 10 NEXT I,J:STOP ELSE 20` is accepted. One statement closes two loops, and it follows
the first jump without a separator. -/
theorem statements_parted_save_behind_jumps_loops :
    ∃ tokens statements pieces rest,
      tokens = [.word .IF, .name (.plain "A"), .word .GOTO, .number "10", .word .NEXT,
        .name (.plain "I"), .comma, .name (.plain "J"), .colon, .word .STOP, .word .ELSE,
        .number "20"] ∧
      Statement.parse none tokens = .ok statements ∧
      Divides (Lexeme.place 0 tokens) pieces rest ∧
      pieces.map role =
        [.condition, .goto, .statement, .colon, .statement, .elseWord, .number] ∧
      statements.map (Statement.withTarget 0) = pieces.flatMap Piece.statements ∧
      Chained Meets none pieces none := by
  let tokens : List Token := [.word .IF, .name (.plain "A"), .word .GOTO, .number "10", .word .NEXT,
    .name (.plain "I"), .comma, .name (.plain "J"), .colon, .word .STOP, .word .ELSE, .number "20"]
  have accepted : Statement.parse none tokens =
      .ok [.branch ⟨0, 2⟩ (.scalar ⟨2, 3⟩ (.plain "A")) 6, .run (.goto ⟨3, 7⟩ 10),
        .run (.next ⟨13, 14⟩ (some (.plain "I"))), .run (.next ⟨15, 16⟩ (some (.plain "J"))),
        .run (.stop ⟨17, 21⟩), .skip ⟨21, 25⟩ 7, .run (.goto ⟨25, 27⟩ 20)] :=
    (Statement.parse_eq _ _).trans rfl
  obtain ⟨known, divided, roles⟩ : ∃ ps, Divides (Lexeme.place 0 tokens) ps [] ∧ ps.map role =
      [.condition, .goto, .statement, .colon, .statement, .elseWord, .number] := by
    refine ⟨_, .cons (condition ⟨0, 2⟩ [⟨.name (.plain "A"), ⟨2, 3⟩⟩]
        (.scalar ⟨2, 3⟩ (.plain "A"))) rfl
      (.cons (goto .GOTO ⟨3, 7⟩ ⟨.number "10", ⟨7, 9⟩⟩ 10) ⟨rfl, rfl⟩
      (.cons (statement [⟨.word .NEXT, ⟨9, 13⟩⟩, ⟨.name (.plain "I"), ⟨13, 14⟩⟩, ⟨.comma, ⟨14, 15⟩⟩,
        ⟨.name (.plain "J"), ⟨15, 16⟩⟩]
        [.next ⟨13, 14⟩ (some (.plain "I")), .next ⟨15, 16⟩ (some (.plain "J"))]) rfl
      (.cons (colon ⟨16, 17⟩) trivial
      (.cons (statement [⟨.word .STOP, ⟨17, 21⟩⟩] [.stop ⟨17, 21⟩]) rfl
      (.cons (elseWord ⟨21, 25⟩) trivial
      (.cons (number "20" ⟨25, 27⟩ 20) rfl (.nil []))))))), rfl⟩
  obtain ⟨pieces, rest, divides, ended, stored, linked, unique⟩ :=
    statements_parted_save_behind_jumps accepted
  have linked' : Chained Meets none known none :=
    (Chained.iff_of_roles roles).mpr (by decide)
  obtain rfl := unique known [] divided trivial linked'
  exact ⟨tokens, _, known, rest, rfl, accepted, divides, roles, stored, linked⟩

/-- `IF A THEN 100 PRINT B` is accepted although its `PRINT` follows the line number without a
separator: there is no way to divide the line into parted pieces. -/
theorem statements_not_parted :
    ∃ tokens statements,
      tokens = [.word .IF, .blank 1, .name (.plain "A"), .blank 1, .word .THEN, .blank 1,
        .number "100", .blank 1, .word .PRINT, .blank 1, .name (.plain "B")] ∧
      Statement.parse none tokens = .ok statements ∧
      ∀ pieces rest, Divides (Lexeme.place 0 tokens) pieces rest → LineEnds rest →
        ¬Chained (fun a b => Role.parted a b = true) none pieces none := by
  let tokens : List Token := [.word .IF, .blank 1, .name (.plain "A"), .blank 1, .word .THEN,
    .blank 1, .number "100", .blank 1, .word .PRINT, .blank 1, .name (.plain "B")]
  have accepted : Statement.parse none tokens =
      .ok [.branch ⟨0, 2⟩ (.scalar ⟨3, 4⟩ (.plain "A")) 3, .run (.goto ⟨10, 13⟩ 100),
        .run (.print ⟨14, 19⟩ [.value (.scalar ⟨20, 21⟩ (.plain "B"))])] :=
    (Statement.parse_eq _ _).trans rfl
  obtain ⟨known, divided, roles⟩ : ∃ ps, Divides (Lexeme.place 0 tokens) ps [] ∧
      ps.map role = [.condition, .thenWord, .number, .statement] :=
    ⟨_, .cons (condition ⟨0, 2⟩ [⟨.name (.plain "A"), ⟨3, 4⟩⟩] (.scalar ⟨3, 4⟩ (.plain "A"))) rfl
      (.cons (thenWord ⟨5, 9⟩) trivial
      (.cons (number "100" ⟨10, 13⟩ 100) rfl
      (.cons (statement [⟨.word .PRINT, ⟨14, 19⟩⟩, ⟨.name (.plain "B"), ⟨20, 21⟩⟩]
        [.print ⟨14, 19⟩ [.value (.scalar ⟨20, 21⟩ (.plain "B"))]]) rfl (.nil [])))), rfl⟩
  refine ⟨tokens, _, rfl, accepted, fun pieces rest divides ended parted => ?_⟩
  have linked : Chained Meets none pieces none := parted.imp fun _ _ => .inl
  have linked' : Chained Meets none known none :=
    (Chained.iff_of_roles roles).mpr (by decide)
  obtain rfl := divides.unique divided linked linked' ended trivial
  have chain := (Chained.iff_of_roles roles).mp parted
  revert chain
  decide

end Piece

end NumberedBasic
