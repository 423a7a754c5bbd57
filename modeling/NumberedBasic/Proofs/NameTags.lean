import NumberedBasic.Proofs.LastDefinition
import NumberedBasic.Proofs.PairedStatements
import NumberedBasic.Proofs.SessionInvariant
import NumberedBasic.Proofs.TokenShape

/-!
# Tags of the names in a program

A name is handed on with a tag, while memory goes by its spelling. The scanner gives every name the
tag that its spelling asks for (`Ident.Spelled`). Statements take their names from the tokens of
their line, so that the two agree in every program that was loaded (`Program.tagged_of_load`): a
`FOR` is over a variable for numbers, and the targets of an `INPUT` or a `READ` are given what their
names stand for.
-/

set_option autoImplicit false

namespace NumberedBasic

open Lexeme (SameTokens)

/-! ## Names of a line -/

/-- The tag of a name is the one that its spelling asks for. -/
def Ident.Spelled (i : Ident) : Prop :=
  i.isText = i.name.isText

/-- A name that the scanner makes has the tag that its spelling asks for. -/
theorem Token.Identifier.spelled {i : Ident} (identifier : Token.Identifier i) : i.Spelled := by
  rw [Ident.Spelled, Bool.eq_iff_iff, identifier.tag]
  exact beq_iff_eq.symm

namespace Lexeme

/-- All names among some lexemes have the tags that their spellings ask for. -/
def Spelled (ts : List Lexeme) : Prop :=
  ∀ i column, ⟨.name i, column⟩ ∈ ts → i.Spelled

variable {source ts : List Lexeme} {n : Nat}

/-- What is left of a line has names of the line. -/
theorem Spelled.of_drop (spelled : Spelled source) (there : source.drop n = ts) : Spelled ts := by
  intro i column inside
  rw [← there] at inside
  exact spelled i column (List.mem_of_mem_drop inside)

/-- The names behind the first lexeme have the right tags if all have. -/
theorem Spelled.tail {t : Lexeme} (spelled : Spelled (t :: ts)) : Spelled ts :=
  fun i column inside => spelled i column (List.mem_cons_of_mem _ inside)

/-- A lexeme is one of the tokens it was made of. -/
theorem token_mem_of_place {start : Nat} {tokens : List Token} {x : Lexeme}
    (inside : x ∈ place start tokens) : x.token ∈ tokens := by
  have listed : x.token ∈ (place start tokens).map Lexeme.token := List.mem_map_of_mem inside
  rw [map_token_place] at listed
  exact (List.mem_filter.mp listed).1

/-- The names of a line that was scanned have the right tags. -/
theorem spelled_scanLine (cs : List Char) (start : Nat) :
    Spelled (place start (Token.scanLine cs).2) := by
  intro i column inside
  exact ((Token.scanLine_wellShaped cs).named i (token_mem_of_place inside)).spelled

end Lexeme

/-- A reader leaves a part of the line it was given. -/
theorem Agree.exists_drop {α : Type} {source : List Lexeme} {Good : α → α → Nat → Prop}
    {x y : Except Refusal (WithRest α)} (agree : Agree source Good x y) {a : α}
    {rest : List Lexeme} (done : x = .ok (a, rest)) : ∃ b k, Good a b k ∧ source.drop k = rest := by
  cases agree with
  | ok good there same =>
    cases done
    exact ⟨_, _, good, there⟩
  | error => cases done

/-! ## Names of statements -/

/-- The variable of a loop stands for numbers, and the targets that are given the fields of a reply
or data items have the tags that their spellings ask for. -/
def Command.Tagged : Command → Prop
  | .loop _ i _ _ _ => i.name.isText = false
  | .input _ _ targets | .read _ targets => ∀ target ∈ targets, target.ident.Spelled
  | _ => True

/-- Whatever a reader yields has a property. -/
def Yields {α : Type} (P : α → Prop) (x : Except Refusal (WithRest α)) : Prop :=
  ∀ a rest, x = .ok (a, rest) → P a

namespace Yields

variable {α β : Type} {P : α → Prop}

/-- A reader that yields a value with the property yields such values. -/
theorem pure {a : α} {rest : List Lexeme} (h : P a) : Yields P (Pure.pure (a, rest)) := by
  intro b rest' same
  cases same
  exact h

/-- A reader that refuses yields nothing. -/
theorem refuse {ts : List Lexeme} {detail : String} : Yields P (Lexeme.refuse ts detail) := by
  intro b rest' same
  cases same

/-- A reader yields values with the property if what it goes on with does. -/
theorem bind {x : Except Refusal β} {f : β → Except Refusal (WithRest α)}
    (h : ∀ b, Yields P (f b)) : Yields P (x >>= f) := by
  intro a rest done
  obtain ⟨b, -, done⟩ := exists_of_bind_eq_ok done
  exact h b a rest done

/-- The first part of a reading may be used for what comes after it. -/
theorem bind_of {x : Except Refusal β} {f : β → Except Refusal (WithRest α)}
    (h : ∀ b, x = .ok b → Yields P (f b)) : Yields P (x >>= f) := by
  intro a rest done
  obtain ⟨b, read, done⟩ := exists_of_bind_eq_ok done
  exact h b read a rest done

end Yields

variable {ts rest : List Lexeme}

namespace Target

/-- A target that may be assigned to starts with its name. -/
theorem spelled_of_readName (spelled : Lexeme.Spelled ts) {column : Span} {i : Ident}
    (read : readName ts = .ok ((column, i), rest)) : i.Spelled := by
  obtain ⟨-, -, ⟨-, ⟨t, found, -, fits⟩, -⟩, -⟩ :=
    (agree_readName (n := 0) rfl (.refl ts)).exists_drop read
  obtain ⟨t, c⟩ := t
  obtain rfl : t = .name i := fits
  exact spelled i c (List.mem_of_getElem? found)

/-- All targets of a list have names of their line. -/
theorem yields_readList (count : Nat) (spelled : Lexeme.Spelled ts) :
    Yields (fun targets => ∀ target ∈ targets, target.ident.Spelled) (readList count ts) := by
  induction count generalizing ts with
  | zero =>
    intro targets rest done
    cases done
  | succ count ih =>
    refine .bind_of ?_
    rintro ⟨first, rest⟩ read
    obtain ⟨-, k, ⟨-, -, c, found⟩, there⟩ :=
      (agree_read (n := 0) rfl (.refl ts)).exists_drop read
    have here : first.ident.Spelled := spelled _ c (List.mem_of_getElem? found)
    dsimp only
    split
    next column others =>
      have left : Lexeme.Spelled others := (spelled.of_drop there).tail
      refine .bind_of ?_
      rintro ⟨targets, rest⟩ readOthers
      exact .pure (List.forall_mem_cons.mpr ⟨here, ih left targets rest readOthers⟩)
    next => exact .pure (List.forall_mem_singleton.mpr here)

end Target

namespace Command

/-- A loop comes of `FOR`, which refuses variables that stand for strings. -/
theorem yields_readLoop (column : Span) (spelled : Lexeme.Spelled ts) :
    Yields Tagged (readLoop column ts) := by
  unfold readLoop
  refine .bind_of ?_
  rintro ⟨⟨place, i⟩, rest⟩ read
  dsimp only
  split
  · exact .refuse
  · next numeric =>
    have isNumeric : i.name.isText = false :=
      (Target.spelled_of_readName spelled read).symm.trans (Bool.eq_false_iff.mpr numeric)
    refine .bind fun rest => .bind fun (first, rest) => .bind fun rest =>
      .bind fun (last, rest) => ?_
    dsimp only
    split
    · exact .bind fun (step, rest) => .pure isNumeric
    · exact .pure isNumeric

/-- An assignment has no loop variable and no targets of fields or items. -/
theorem yields_readAssign (column : Span) (ts : List Lexeme) :
    Yields Tagged (readAssign column ts) :=
  .bind fun _ => .bind fun _ => .bind fun _ => .pure trivial

/-- The prompt of an `INPUT` is left behind. -/
theorem spelled_of_readPrompt (spelled : Lexeme.Spelled ts) {prompt : String}
    (read : readPrompt ts = .ok (prompt, rest)) : Lexeme.Spelled rest := by
  obtain ⟨_, _, _, there⟩ := (agree_readPrompt (n := 0) rfl (.refl ts)).exists_drop read
  exact spelled.of_drop there

/-- A statement that a word opens has the right tags. -/
theorem yields_readSingle (whole : List Lexeme) (word : Word) (column : Span)
    (spelled : Lexeme.Spelled ts) : Yields Tagged (readSingle whole word column ts) := by
  -- Only `FOR`, `READ` and `INPUT` have names whose tags matter.
  cases word with
  | FOR => exact yields_readLoop column spelled
  | CLEAR | DATA | END | RETURN | STOP => exact .pure trivial
  | DEF =>
    refine .bind fun rest => ?_
    dsimp only
    split <;> exact .bind fun _ => .bind fun _ => .bind fun _ => .pure trivial
  | DIM =>
    refine .bind ?_
    rintro ⟨targets, rest⟩
    dsimp only
    split
    · exact .pure trivial
    · exact .refuse
  | GOSUB | GO_SUB | GOTO | GO_TO | PRINT | QUESTION => exact .bind fun _ => .pure trivial
  | READ =>
    refine .bind_of ?_
    rintro ⟨targets, rest⟩ read
    exact .pure (Target.yields_readList _ spelled targets rest read)
  | INPUT =>
    refine .bind_of ?_
    rintro ⟨prompt, rest⟩ readPrompt
    refine .bind_of ?_
    rintro ⟨targets, rest⟩ read
    exact .pure (Target.yields_readList _ (spelled_of_readPrompt spelled readPrompt) _ _ read)
  | LET => exact yields_readAssign column ts
  | ON =>
    refine .bind ?_
    rintro ⟨selector, rest⟩
    dsimp only
    split
    · exact .bind fun _ => .pure trivial
    · exact .bind fun _ => .pure trivial
    · exact .bind fun _ => .pure trivial
    · exact .bind fun _ => .pure trivial
    · exact .refuse
  | REM | APOSTROPHE =>
    unfold readSingle
    dsimp only
    split <;> exact .pure trivial
  | RESTORE =>
    unfold readSingle readRestore
    dsimp only
    split
    · exact .bind fun _ => .pure trivial
    · exact .bind fun _ => .pure trivial
    · exact .pure trivial
  | IF | NEXT | ELSE | FN | STEP | THEN | TO => exact .refuse

/-- The `NEXT`s of a list of names have the right tags. -/
theorem yields_readNextNames (ts : List Lexeme) :
    Yields (fun commands => ∀ command ∈ commands, Tagged command) (readNextNames ts) := by
  fun_induction readNextNames ts with
  | case1 n column column' rest ih =>
    refine .bind_of ?_
    rintro ⟨others, after⟩ read
    exact .pure (List.forall_mem_cons.mpr ⟨trivial, ih others after read⟩)
  | case2 => exact .pure (List.forall_mem_singleton.mpr trivial)
  | case3 => exact .refuse

/-- The statements that are read of a line with the right tags have the right tags. -/
theorem tagged_of_readStatement (spelled : Lexeme.Spelled ts) {commands : List Command}
    (read : readStatement ts = .ok (commands, rest)) : ∀ command ∈ commands, command.Tagged := by
  revert read
  unfold readStatement
  split
  · intro read
    obtain ⟨⟨command, rest⟩, read, done⟩ := exists_of_bind_eq_ok read
    cases done
    exact List.forall_mem_singleton.mpr (yields_readAssign _ _ command _ read)
  · split
    · exact yields_readNextNames _ commands rest
    · intro read
      cases read
      exact List.forall_mem_singleton.mpr trivial
  · intro read
    obtain ⟨⟨command, rest⟩, read, done⟩ := exists_of_bind_eq_ok read
    cases done
    exact List.forall_mem_singleton.mpr (yields_readSingle _ _ _ spelled.tail command _ read)
  · intro read
    cases read

end Command

/-! ## Names of lines and programs -/

namespace Block

variable {commands : List Command} {command : Command}

/-- A line number and the jump it stands for name nothing. -/
theorem spelled_of_lineNumber (spelled : Lexeme.Spelled ts) {line : LineNumber}
    (read : Lexeme.lineNumber ts = .ok (line, rest)) : Lexeme.Spelled rest := by
  obtain ⟨_, _, _, there⟩ := (Lexeme.agree_lineNumber (n := 0) rfl (.refl ts)).exists_drop read
  exact spelled.of_drop there

/-- The commands that open a branch have the right tags, and so have the names behind them. -/
theorem BranchFront.tagged (front : BranchFront ts commands rest) (spelled : Lexeme.Spelled ts) :
    Lexeme.Spelled rest ∧ ∀ command ∈ commands, command.Tagged := by
  cases front with
  | jump number =>
    exact ⟨spelled_of_lineNumber spelled number, List.forall_mem_singleton.mpr trivial⟩
  | none noNumber => exact ⟨spelled, by simp⟩

/-- The commands that open an outcome have the right tags, and so have the names behind them. -/
theorem OutcomeFront.tagged (front : OutcomeFront ts commands rest)
    (spelled : Lexeme.Spelled ts) :
    Lexeme.Spelled rest ∧ ∀ command ∈ commands, command.Tagged := by
  cases front with
  | branch inner => exact inner.tagged spelled.tail
  | jump goto number =>
    exact ⟨spelled_of_lineNumber spelled.tail number, List.forall_mem_singleton.mpr trivial⟩

/-- The commands of a block stand at its front or in what follows. -/
theorem run_mem_flatten_prepend {rest : Block} {start : Nat} (here : ∀ c ∈ commands, c.Tagged)
    (later : .run command ∈ rest.flatten (start + commands.length) → command.Tagged)
    (inside : .run command ∈ (prepend commands rest).flatten start) : command.Tagged := by
  rw [flatten_prepend, List.mem_append, List.mem_map] at inside
  rcases inside with ⟨other, inside, same⟩ | inside
  · cases same
    exact here _ inside
  · exact later inside

/-- The commands of a block that lexemes with the right tags spell have the right tags, and so has
the rest of the line. -/
theorem Reads.tagged {block : Block} (reads : Reads ts block rest)
    (spelled : Lexeme.Spelled ts) (start : Nat) :
    Lexeme.Spelled rest ∧ ∀ command, .run command ∈ block.flatten start → command.Tagged := by
  induction reads generalizing start with
  | done ends => exact ⟨spelled, by simp [flatten]⟩
  | colon _ ih => exact ih spelled.tail start
  | @plain ts next rest commands block read _ _ ih =>
    obtain ⟨_, _, _, there⟩ :=
      (Command.agree_readStatement (n := 0) rfl (.refl ts) (by simp [Mark.before])).exists_drop read
    have after := ih (spelled.of_drop there)
    refine ⟨(after 0).1, fun command => ?_⟩
    exact run_mem_flatten_prepend (Command.tagged_of_readStatement spelled read)
      ((after _).2 command)
  | @ifThen column ts outcome first rest predicate commands yes read begins _ _ ih =>
    obtain ⟨_, _, _, there⟩ := (Expr.agree_read (n := 0) rfl (.refl ts)).exists_drop read
    obtain ⟨left, jumps⟩ := begins.tagged (spelled.tail.of_drop there)
    refine ⟨(ih left 0).1, fun command inside => ?_⟩
    simp only [flatten, List.mem_cons, reduceCtorEq, false_or] at inside
    exact run_mem_flatten_prepend jumps ((ih left _).2 command) inside
  | @ifElse column elseColumn ts outcome first branch second rest predicate commands others yes no
      read begins _ elseBegins _ yesIh noIh =>
    obtain ⟨_, _, _, there⟩ := (Expr.agree_read (n := 0) rfl (.refl ts)).exists_drop read
    obtain ⟨left, jumps⟩ := begins.tagged (spelled.tail.of_drop there)
    obtain ⟨elseLeft, elseJumps⟩ := elseBegins.tagged (yesIh left 0).1.tail
    refine ⟨(noIh elseLeft 0).1, fun command inside => ?_⟩
    simp only [flatten, List.mem_cons, List.mem_append, List.cons_append, reduceCtorEq,
      false_or] at inside
    rcases inside with inside | inside
    · exact run_mem_flatten_prepend jumps ((yesIh left _).2 command) inside
    · exact run_mem_flatten_prepend elseJumps ((noIh elseLeft _).2 command) inside

end Block

namespace Program

variable {program : Program}

/-- All commands of a program have the right tags. -/
def Tagged (program : Program) : Prop :=
  ∀ a command, program.statementAt? a = some (.run command) → command.Tagged

/-- The commands of a line that was entered as text and is accepted have the right tags. -/
theorem tagged_of_statements {text : String} {statements : List Statement}
    (read : (Line.ofText text).statements = .ok statements) {command : Command}
    (inside : .run command ∈ statements) : command.Tagged := by
  unfold Line.statements at read
  split at read
  · cases read
  · obtain ⟨block, rest, spelled, -, rfl⟩ := Block.exists_reads_of_parse read
    exact (spelled.tagged (Lexeme.spelled_scanLine _ 0) 0).2 command inside

/-- The names of a program that was loaded have the right tags. -/
theorem tagged_of_load {source : String} (loaded : load source = .ok program) :
    program.Tagged := by
  intro a command stands
  obtain ⟨line, found, inside⟩ := statementAt?_eq_some.mp stands
  obtain ⟨listing, listed, -⟩ := exists_of_bind_eq_ok loaded
  obtain ⟨-, -, reads⟩ := lines_of_load listed loaded
  obtain ⟨⟨n, entry⟩, member, -, read⟩ := reads line (Array.mem_of_getElem? found).val
  obtain ⟨defined, -⟩ := (Listing.mem_toList_of_load listed).mp member
  obtain ⟨text, -, rfl⟩ := List.mem_map.mp (List.mem_reverse.mp (List.mem_of_find?_eq_some defined))
  exact tagged_of_statements read (Array.mem_of_getElem? inside).val

end Program

/-- The names of the program have the right tags in every session that a host can bring about. -/
theorem Session.Reachable.tagged {s : Session} (reachable : Session.Reachable s) :
    s.program.Tagged := by
  refine Session.Reachable.invariant (J := fun s => s.program.Tagged) ?_ ?_ ?_ reachable
  · intro source program config clock loaded
    exact Program.tagged_of_load loaded
  · intro program config s formed standing tagged
    rw [(standing.turn formed).program_eq, ← standing.program_eq]
    exact tagged
  · intro s t only tagged
    rw [show t.program = s.program from only .program (by decide)]
    exact tagged

end NumberedBasic
