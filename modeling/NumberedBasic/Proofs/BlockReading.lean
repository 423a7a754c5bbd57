import NumberedBasic.Proofs.Blocks
import NumberedBasic.Proofs.CursorReading

/-!
# A line is read as the block it spells

The reader of statements never builds a block: it appends statements to those already read, leaves
the targets of `IF` and `ELSE` open, and fills them in when the ends of the branches are known.
`Block.Reads` says which block the lexemes of a line spell, and `Block.appends_readTo` that what the
reader appends is that block laid out from where it was appended. With `Block.walk_flatten` this
gives the meaning of a line that is accepted, `Block.parse_means_nested`.
-/

set_option autoImplicit false

namespace NumberedBasic

namespace Block

/-- An `ELSE` is next. -/
def AtElse : List Lexeme → Prop
  | ⟨.word .ELSE, _⟩ :: _ => True
  | _ => False

/-- The front of a branch: a line number, which is a jump to that line, or nothing. -/
inductive BranchFront : List Lexeme → List Command → List Lexeme → Prop
  | jump {s : String} {column : Span} {ts rest : List Lexeme} {line : LineNumber}
      (number : Lexeme.lineNumber (⟨.number s, column⟩ :: ts) = .ok (line, rest)) :
      BranchFront (⟨.number s, column⟩ :: ts) [.goto column line] rest
  | none {ts : List Lexeme} (noNumber : ∀ s column rest, ts ≠ ⟨.number s, column⟩ :: rest) :
      BranchFront ts [] ts

/-- The front of what an `IF` does when its predicate holds: `THEN` and the front of a branch, or a
jump. -/
inductive OutcomeFront : List Lexeme → List Command → List Lexeme → Prop
  | branch {column : Span} {ts rest : List Lexeme} {commands : List Command}
      (front : BranchFront ts commands rest) :
      OutcomeFront (⟨.word .THEN, column⟩ :: ts) commands rest
  | jump {word : Word} {column : Span} {ts rest : List Lexeme} {line : LineNumber}
      (goto : word = .GOTO ∨ word = .GO_TO) (number : Lexeme.lineNumber ts = .ok (line, rest)) :
      OutcomeFront (⟨.word word, column⟩ :: ts) [.goto column line] rest

/-- Lexemes spell a block as far as some rest. An `IF` has the `ELSE` that follows its first
block, if one does. -/
inductive Reads : List Lexeme → Block → List Lexeme → Prop
  | done {ts : List Lexeme} (ends : Ends ts) : Reads ts .done ts
  | colon {column : Span} {ts rest : List Lexeme} {block : Block} (reads : Reads ts block rest) :
      Reads (⟨.colon, column⟩ :: ts) block rest
  | plain {ts next rest : List Lexeme} {commands : List Command} {block : Block}
      (read : Command.readStatement ts = .ok (commands, next)) (ended : Lexeme.atEnd next = true)
      (reads : Reads next block rest) : Reads ts (prepend commands block) rest
  | ifThen {column : Span} {ts outcome first rest : List Lexeme} {predicate : Expr}
      {commands : List Command} {yes : Block}
      (read : Expr.read ts = .ok (predicate, outcome)) (front : OutcomeFront outcome commands first)
      (reads : Reads first yes rest) (alone : ¬AtElse rest) :
      Reads (⟨.word .IF, column⟩ :: ts) (.ifThen column predicate (prepend commands yes)) rest
  | ifElse {column elseColumn : Span} {ts outcome first branch second rest : List Lexeme}
      {predicate : Expr} {commands others : List Command} {yes no : Block}
      (read : Expr.read ts = .ok (predicate, outcome)) (front : OutcomeFront outcome commands first)
      (reads : Reads first yes (⟨.word .ELSE, elseColumn⟩ :: branch))
      (elseFront : BranchFront branch others second) (elseReads : Reads second no rest) :
      Reads (⟨.word .IF, column⟩ :: ts)
        (.ifElse column predicate (prepend commands yes) elseColumn (prepend others no)) rest

/-- A block is read up to where a statement may end. -/
theorem Reads.ends {ts rest : List Lexeme} {block : Block} (h : Reads ts block rest) :
    Ends rest := by
  induction h with
  | done ends => exact ends
  | colon _ ih => exact ih
  | plain _ _ _ ih => exact ih
  | ifThen _ _ _ _ ih => exact ih
  | ifElse _ _ _ _ _ _ ih => exact ih

/-- Every `ELSE` belongs to the nearest open `IF`, and a block before an `ELSE` leaves no `IF`
open. -/
theorem Reads.elseNearest {ts rest : List Lexeme} {block : Block} (h : Reads ts block rest) :
    block.ElseNearest ∧ (AtElse rest → block.Closed) := by
  induction h with
  | done => exact ⟨trivial, fun _ => trivial⟩
  | colon _ ih => exact ih
  | plain _ _ _ ih => exact ⟨elseNearest_prepend.mpr ih.1, fun h => closed_prepend.mpr (ih.2 h)⟩
  | ifThen _ _ _ alone ih => exact ⟨elseNearest_prepend.mpr ih.1, fun h => absurd h alone⟩
  | ifElse _ _ _ _ _ yesIh noIh =>
      have closed := yesIh.2 trivial
      refine ⟨⟨closed_prepend.mpr closed, ?_, ?_⟩, fun h => ?_⟩
      · exact elseNearest_prepend.mpr yesIh.1
      · exact elseNearest_prepend.mpr noIh.1
      · exact ⟨closed_prepend.mpr closed, closed_prepend.mpr (noIh.2 h)⟩

/-- Filling in a target changes the statement it belongs to and no other. -/
theorem toList_setTarget {code : Array Statement} {before after : List Statement}
    {statement : Statement} {index : Nat} (target : Nat)
    (laid : code.toList = before ++ statement :: after) (placed : before.length = index) :
    (Statement.setTarget code index target).toList =
      before ++ statement.withTarget target :: after := by
  have inside : index < (before ++ statement :: after).length := by simp [← placed]
  rw [Statement.setTarget, Array.toList_modify, laid, List.modify_eq_take_cons_drop inside]
  simp [← placed]

section Reader

variable {ts rest : List Lexeme} {code code' : Array Statement}

/-- What a reader of branches has to satisfy: it appends a block that the lexemes spell, laid out
from where it was appended. -/
def Appends (extend : Statement.Extender) : Prop :=
  ∀ {ts rest : List Lexeme} {code code' : Array Statement},
    extend ts code = .ok (code', rest) →
      ∃ block, Reads ts block rest ∧ code'.toList = code.toList ++ block.flatten code.size

/-- A jump that was read is appended in front of the block that follows it. -/
theorem Appends.push_goto {extend : Statement.Extender} (appends : Appends extend) {column : Span}
    {line : LineNumber}
    (h : extend ts (code.push (.run (.goto column line))) = .ok (code', rest)) :
    ∃ block, Reads ts block rest ∧
      code'.toList = code.toList ++ (prepend [.goto column line] block).flatten code.size := by
  obtain ⟨block, reads, laid⟩ := appends h
  refine ⟨block, reads, ?_⟩
  rw [laid, flatten_prepend, Array.toList_push, Array.size_push, List.append_assoc]
  rfl

/-- A branch is appended with the jump at its front. -/
theorem Appends.readBranch {extend : Statement.Extender} (appends : Appends extend)
    (h : Statement.readBranch extend ts code = .ok (code', rest)) :
    ∃ commands first block, BranchFront ts commands first ∧ Reads first block rest ∧
      code'.toList = code.toList ++ (prepend commands block).flatten code.size := by
  unfold Statement.readBranch at h
  split at h
  · obtain ⟨⟨line, first⟩, number, h⟩ := exists_of_bind_eq_ok h
    obtain ⟨block, reads, laid⟩ := appends.push_goto h
    exact ⟨_, first, block, .jump number, reads, laid⟩
  next noNumber =>
    obtain ⟨block, reads, laid⟩ := appends h
    exact ⟨[], ts, block, .none noNumber, reads, laid⟩

/-- Reading the outcome of an `IF` appends the flat form of a block, in front of which the commands
that open the outcome stand. -/
theorem Appends.readOutcome {extend : Statement.Extender} (appends : Appends extend)
    (h : Statement.readOutcome extend ts code = .ok (code', rest)) :
    ∃ commands first block, OutcomeFront ts commands first ∧ Reads first block rest ∧
      code'.toList = code.toList ++ (prepend commands block).flatten code.size := by
  unfold Statement.readOutcome at h
  split at h
  · obtain ⟨commands, first, block, front, reads, laid⟩ := appends.readBranch h
    exact ⟨commands, first, block, .branch front, reads, laid⟩
  · obtain ⟨⟨line, first⟩, number, h⟩ := exists_of_bind_eq_ok h
    obtain ⟨block, reads, laid⟩ := appends.push_goto h
    exact ⟨_, first, block, .jump (.inl rfl) number, reads, laid⟩
  · obtain ⟨⟨line, first⟩, number, h⟩ := exists_of_bind_eq_ok h
    obtain ⟨block, reads, laid⟩ := appends.push_goto h
    exact ⟨_, first, block, .jump (.inr rfl) number, reads, laid⟩
  · cases h

/-- An `IF` is appended with its branches, and its targets are those of its layout. -/
theorem Appends.readIf {extend : Statement.Extender} (appends : Appends extend) {column : Span}
    (h : Statement.readIf extend column ts code = .ok (code', rest)) :
    ∃ block, Reads (⟨.word .IF, column⟩ :: ts) block rest ∧
      code'.toList = code.toList ++ block.flatten code.size := by
  unfold Statement.readIf at h
  obtain ⟨⟨predicate, outcome⟩, read, h⟩ := exists_of_bind_eq_ok h
  obtain ⟨⟨body, afterYes⟩, readYes, h⟩ := exists_of_bind_eq_ok h
  obtain ⟨commands, first, yes, front, readsYes, laidYes⟩ := appends.readOutcome readYes
  -- the statements of the first branch, behind an `IF` that does not have its target yet
  let yesBody := (prepend commands yes).flatten (code.size + 1)
  have laidIf : body.toList = code.toList ++ .branch column predicate 0 :: yesBody := by
    simpa using laidYes
  have sizeIf : body.size = code.size + 1 + yesBody.length := by
    rw [← Array.length_toList, laidIf]
    simp
    omega
  dsimp only at h
  split at h
  next elseColumn branch =>
    obtain ⟨⟨whole, afterNo⟩, readNo, h⟩ := exists_of_bind_eq_ok h
    cases h
    obtain ⟨others, second, no, elseFront, readsNo, laidNo⟩ := appends.readBranch readNo
    have laidElse : (body.push (.skip elseColumn 0)).toList =
        code.toList ++ .branch column predicate 0 :: (yesBody ++ [.skip elseColumn 0]) := by
      simp [laidIf]
    have laidTarget := toList_setTarget (body.size + 1) laidElse Array.length_toList
    have sizeTarget : (Statement.setTarget (body.push (.skip elseColumn 0)) code.size
        (body.size + 1)).size = body.size + 1 := by
      simp [Statement.setTarget]
    rw [laidTarget, sizeTarget] at laidNo
    let noBody := (prepend others no).flatten (body.size + 1)
    have laidWhole : whole.toList = (code.toList ++
        .branch column predicate (body.size + 1) :: yesBody) ++ .skip elseColumn 0 :: noBody := by
      simpa [Statement.withTarget] using laidNo
    have sizeWhole : whole.size = body.size + 1 + noBody.length := by
      rw [← Array.length_toList, laidWhole, sizeIf]
      simp
      omega
    have placed : (code.toList ++
        Statement.branch column predicate (body.size + 1) :: yesBody).length = body.size := by
      simp [sizeIf]
      omega
    refine ⟨.ifElse column predicate (prepend commands yes) elseColumn (prepend others no),
      .ifElse read front readsYes elseFront readsNo, ?_⟩
    rw [toList_setTarget whole.size laidWhole placed, sizeWhole]
    simp only [noBody, sizeIf, List.append_assoc, List.cons_append]
    rfl
  next alone =>
    cases h
    refine ⟨.ifThen column predicate (prepend commands yes), .ifThen read front readsYes ?_, ?_⟩
    · intro atElse
      unfold AtElse at atElse
      split at atElse
      · exact alone _ _ rfl
      · exact atElse
    · rw [toList_setTarget body.size laidIf Array.length_toList, sizeIf]
      rfl

/-- At the end of a block the reader returns what it was given. -/
theorem readTo_of_ends {depth : Nat} (ends : Ends ts)
    (h : Statement.readTo depth ts code = .ok (code', rest)) : code' = code ∧ rest = ts := by
  cases depth with
  | zero => cases h
  | succ depth =>
      unfold Ends at ends
      unfold Statement.readTo at h
      split at ends
      · cases h
        exact ⟨rfl, rfl⟩
      · cases h
        exact ⟨rfl, rfl⟩
      · cases h
        exact ⟨rfl, rfl⟩
      · exact ends.elim

/-- What the reader appends is a block that the lexemes spell, laid out from where it was
appended. -/
theorem appends_readTo (depth : Nat) : Appends (Statement.readTo depth) := by
  induction depth with
  | zero =>
      intro ts rest code code' h
      cases h
  | succ depth ih =>
      intro ts rest code code' h
      unfold Statement.readTo at h
      split at h
      · cases h
        exact ⟨.done, .done trivial, by simp [flatten]⟩
      · cases h
        exact ⟨.done, .done trivial, by simp [flatten]⟩
      · cases h
        exact ⟨.done, .done trivial, by simp [flatten]⟩
      · obtain ⟨block, reads, laid⟩ := ih h
        exact ⟨block, .colon reads, laid⟩
      · -- the rest of the line belongs to the branches, so nothing is read after them
        obtain ⟨⟨read, afterIf⟩, readIf, h⟩ := exists_of_bind_eq_ok h
        obtain ⟨block, reads, laid⟩ := ih.readIf readIf
        obtain ⟨rfl, rfl⟩ := readTo_of_ends reads.ends h
        exact ⟨block, reads, laid⟩
      · obtain ⟨⟨commands, next⟩, read, h⟩ := exists_of_bind_eq_ok h
        dsimp only at h
        split at h
        next ended =>
          obtain ⟨block, reads, laid⟩ := ih h
          refine ⟨prepend commands block, .plain read ended reads, ?_⟩
          have size : (code ++ commands.map Statement.run).size = code.size + commands.length := by
            rw [← Array.length_toList]
            simp
          rw [laid, flatten_prepend, size]
          simp
        next => cases h

/-- The lexemes of a line that is accepted spell a block to their end, and its statements are that
block laid out. -/
theorem exists_reads_of_parse {line : Option LineNumber} {tokens : List Token}
    {statements : List Statement} (h : Statement.parse line tokens = .ok statements) :
    ∃ block rest, Reads (Lexeme.place 0 tokens) block rest ∧ ¬AtElse rest ∧
      statements = block.flatten 0 := by
  rw [Statement.parse_eq] at h
  unfold Statement.readTokens at h
  split at h
  next code read =>
    cases h
    unfold Statement.readLine at read
    obtain ⟨⟨code', rest⟩, readTo, read⟩ := exists_of_bind_eq_ok read
    obtain ⟨block, reads, laid⟩ := appends_readTo _ readTo
    dsimp only at read
    split at read
    · cases read
      exact ⟨block, _, reads, id, laid⟩
    · cases read
      exact ⟨block, _, reads, id, laid⟩
    · cases read
  next => cases h

/-- The jumps of a line that is accepted lead forward and not beyond its end. -/
theorem lt_target_of_parse {line : Option LineNumber} {tokens : List Token}
    {statements : List Statement} (h : Statement.parse line tokens = .ok statements)
    {i target : Nat} {statement : Statement} (stands : statements[i]? = some statement)
    (jumps : statement.target? = some target) : i < target ∧ target ≤ statements.length := by
  obtain ⟨block, rest, -, -, rfl⟩ := exists_reads_of_parse h
  have bounds := block.lt_target 0 i stands jumps
  rw [length_flatten]
  omega

/-- Following a block that is laid out as a whole line visits what the block visits and comes to
the end of the line, and there is no other way through it. -/
theorem walk_flatten_iff (block : Block) (truth : Nat → Bool) (visited : List Command)
    (stop : Nat) :
    Statement.Walk (block.flatten 0) truth 0 visited stop ∧ (block.flatten 0)[stop]? = none ↔
      visited = block.visited truth 0 ∧ stop = (block.flatten 0).length := by
  have walk : Statement.Walk (block.flatten 0) truth 0 (block.visited truth 0)
      (block.flatten 0).length := by
    have walk := walk_flatten truth block 0 [] [] rfl (List.append_nil _).symm
    rwa [Nat.zero_add, ← length_flatten block 0] at walk
  have ended : (block.flatten 0)[(block.flatten 0).length]? = none :=
    List.getElem?_eq_none (Nat.le_refl _)
  constructor
  · rintro ⟨other, beyond⟩
    exact other.unique beyond walk ended
  · rintro ⟨rfl, rfl⟩
    exact ⟨walk, ended⟩

end Reader

/-- A line that is accepted is a nested block laid out flat. Every `ELSE` of the block belongs to
the nearest open `IF`, the jumps of the line lead forward and not beyond its end, and whichever
predicates hold, following the line visits the commands that the block visits, in order, and comes
to its end. -/
theorem parse_means_nested {line : Option LineNumber} {tokens : List Token}
    {statements : List Statement} (accepted : Statement.parse line tokens = .ok statements) :
    ∃ block rest, Reads (Lexeme.place 0 tokens) block rest ∧ Ends rest ∧ ¬AtElse rest ∧
      statements = block.flatten 0 ∧ block.ElseNearest ∧
      (∀ i statement target, statements[i]? = some statement →
        statement.target? = some target → i < target ∧ target ≤ statements.length) ∧
      ∀ truth visited stop,
        Statement.Walk statements truth 0 visited stop ∧ statements[stop]? = none ↔
          visited = block.visited truth 0 ∧ stop = statements.length := by
  obtain ⟨block, rest, reads, whole, laid⟩ := exists_reads_of_parse accepted
  refine ⟨block, rest, reads, reads.ends, whole, laid, reads.elseNearest.1, ?_, ?_⟩
  · intro i statement target stands jumps
    exact lt_target_of_parse accepted stands jumps
  · intro truth visited stop
    rw [laid]
    exact block.walk_flatten_iff truth visited stop

/-- In `IF A THEN IF B THEN 10 ELSE STOP` the `ELSE` belongs to the second `IF`: nothing is visited
when the first predicate does not hold, and the `STOP` when only the second one does not. -/
theorem parse_means_nested_dangling :
    ∃ statements, ∃ block : Block,
      Statement.parse none
        [.word .IF, .name (.plain "A"), .word .THEN, .word .IF, .name (.plain "B"), .word .THEN,
          .number "10", .word .ELSE, .word .STOP] = .ok statements ∧
      statements = block.flatten 0 ∧ block.ElseNearest ∧
      block.visited (fun _ => false) 0 = [] ∧
      block.visited (fun i => i == 0) 0 = [.stop ⟨20, 24⟩] := by
  let statements : List Statement :=
    [.branch ⟨0, 2⟩ (.scalar ⟨2, 3⟩ (.plain "A")) 5,
      .branch ⟨7, 9⟩ (.scalar ⟨9, 10⟩ (.plain "B")) 4, .run (.goto ⟨14, 16⟩ 10),
      .skip ⟨16, 20⟩ 5, .run (.stop ⟨20, 24⟩)]
  have accepted : Statement.parse none
      [.word .IF, .name (.plain "A"), .word .THEN, .word .IF, .name (.plain "B"), .word .THEN,
        .number "10", .word .ELSE, .word .STOP] = .ok statements :=
    (Statement.parse_eq _ _).trans rfl
  obtain ⟨block, rest, -, -, -, laid, nearest, -, walks⟩ := parse_means_nested accepted
  have past : Statement.Walk statements (fun _ => false) 0 [] 5 :=
    Statement.Walk.fails rfl rfl (.here 5)
  have stop : statements[4]? = some (.run (.stop ⟨20, 24⟩)) := rfl
  have through : Statement.Walk statements (fun i => i == 0) 0 [.stop ⟨20, 24⟩] 5 :=
    Statement.Walk.holds rfl rfl (Statement.Walk.fails rfl rfl (.step stop (.here 5)))
  exact ⟨statements, block, accepted, laid, nearest, ((walks _ _ _).mp ⟨past, rfl⟩).1.symm,
    ((walks _ _ _).mp ⟨through, rfl⟩).1.symm⟩

end Block

end NumberedBasic
