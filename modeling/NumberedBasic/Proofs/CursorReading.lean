import NumberedBasic.Proofs.EnoughDepth

/-!
# A cursor reads the lexemes of a line

The columns that are given to what is read, and to the fault of a line that is refused, are those of
the token that the cursor has come to last. Which token that is depends on every look ahead before.
Here each reader is compared with the reading of lexemes, whose columns are fixed from the start: it
yields the same value, its cursor is left before the same lexemes, and where it refuses, it refuses
for the same reason and its cursor stands at the lexeme that the refusal names.

A cursor is described by the lexemes before it (`Cursor.Before`) and by where it stands
(`Cursor.At`). Taking a token and looking at one both move it to the first of these lexemes, or to
the end of the line (`Cursor.exists_next`, `Cursor.exists_peek`). `Follows` compares one reader at
one cursor with one reading, and has a rule for each step of a reader. The readers follow from these
rules by the recursion they are defined by, and `Statement.parse_eq` sums up.
-/

set_option autoImplicit false

namespace NumberedBasic

/-! ## Cursors -/

/-- Where the first of some lexemes stands, or else the end of a line of the given width. -/
def Lexeme.front (width : Nat) (ts : List Lexeme) : Span :=
  (ts.head?.map Lexeme.column).getD ⟨width, width⟩

namespace Cursor

open Lexeme (front place)

/-- The lexemes that a cursor has before it. -/
def ahead (cursor : Cursor) : List Lexeme :=
  match cursor.peeked with
  | some t => ⟨t, cursor.column⟩ :: place cursor.column.stop cursor.stream
  | none => place cursor.column.stop cursor.stream

/-- A cursor on a line of the given width that has the lexemes `ts` before it. -/
structure Before (width : Nat) (ts : List Lexeme) (cursor : Cursor) : Prop where
  ahead : cursor.ahead = ts
  width : cursor.column.stop + Lexeme.width cursor.stream = width

/-- Such a cursor that has come to the columns `column` last. -/
structure At (width : Nat) (column : Span) (ts : List Lexeme) (cursor : Cursor) : Prop
    extends Before width ts cursor where
  column : cursor.column = column

variable {width : Nat} {ts : List Lexeme} {cursor : Cursor}

/-- At the start of a line all of its lexemes are ahead. -/
theorem before_start (tokens : List Token) :
    Before (Lexeme.width tokens) (place 0 tokens) (start tokens) :=
  ⟨rfl, Nat.zero_add _⟩

/-- Every cursor has the lexemes before it that are ahead of it. -/
theorem before_ahead (cursor : Cursor) :
    Before (cursor.column.stop + Lexeme.width cursor.stream) cursor.ahead cursor :=
  ⟨rfl, rfl⟩

/-- As many tokens can be taken as there are lexemes. -/
theorem length_place (start : Nat) (tokens : List Token) :
    (place start tokens).length = (tokens.filter Token.isSolid).length := by
  induction tokens generalizing start with
  | nil => rfl
  | cons t ts ih =>
    cases t with
    | blank => exact ih _
    | _ => exact congrArg Nat.succ (ih _)

/-- As many tokens can still be taken as there are lexemes ahead. -/
theorem Before.remaining (before : Before width ts cursor) : cursor.remaining = ts.length := by
  rw [← before.ahead]
  unfold Cursor.remaining Cursor.ahead
  cases cursor.peeked with
  | none => exact (length_place _ _).symm
  | some t => exact congrArg Nat.succ (length_place _ _).symm

/-- Going on to the next token comes to the first lexeme, whatever blanks stand before it. -/
theorem exists_advance (column : Span) (stream : List Token) :
    ∃ cursor, advance column stream =
        ((place column.stop stream).head?.map Lexeme.token, cursor) ∧
      cursor.peeked = none ∧
      At (column.stop + Lexeme.width stream)
        (front (column.stop + Lexeme.width stream) (place column.stop stream))
        (place column.stop stream).tail cursor := by
  induction stream generalizing column with
  | nil => exact ⟨_, rfl, rfl, ⟨rfl, rfl⟩, rfl⟩
  | cons t ts ih =>
    have wider : column.stop + Lexeme.width (t :: ts) =
        column.stop + t.text.length + Lexeme.width ts := (Nat.add_assoc _ _ _).symm
    rw [wider]
    cases t with
    | blank s => exact ih ⟨column.stop, column.stop + (Token.blank s).text.length⟩
    | _ => exact ⟨_, rfl, rfl, ⟨rfl, rfl⟩, rfl⟩

/-- Taking a token comes to the first lexeme and leaves the others ahead. -/
theorem exists_next (before : Before width ts cursor) :
    ∃ cursor', cursor.next = (ts.head?.map Lexeme.token, cursor') ∧
      cursor'.peeked = none ∧ At width (front width ts) ts.tail cursor' := by
  obtain ⟨rfl, rfl⟩ := before
  obtain ⟨stream, peeked, column⟩ := cursor
  cases peeked with
  | none => exact exists_advance column stream
  | some t => exact ⟨_, rfl, rfl, ⟨rfl, rfl⟩, rfl⟩

/-- Looking at a token comes to the first lexeme and leaves it ahead. -/
theorem exists_peek (before : Before width ts cursor) :
    ∃ cursor', cursor.peek = (ts.head?.map Lexeme.token, cursor') ∧
      At width (front width ts) ts cursor' := by
  cases looked : cursor.peeked with
  | some t =>
    obtain ⟨rfl, whole⟩ := before
    unfold peek Cursor.ahead
    rw [looked]
    exact ⟨_, rfl, ⟨by unfold Cursor.ahead; rw [looked], whole⟩, rfl⟩
  | none =>
    obtain ⟨⟨stream, peeked, column⟩, taken, none, after⟩ := exists_next before
    unfold peek
    rw [looked, taken]
    refine ⟨_, rfl, ?_⟩
    obtain ⟨⟨left, whole⟩, here⟩ := after
    cases none
    cases ts with
    | nil => exact ⟨⟨left, whole⟩, here⟩
    | cons t ts =>
      cases here
      exact ⟨⟨congrArg _ left, whole⟩, rfl⟩

end Cursor

/-! ## Readers that follow a reading -/

open Cursor (Before At)
open Lexeme (front)

/-- What a reader does at a cursor on a line of the given width is what a reading of lexemes says:
the same value, with a cursor that is as `after` says, or the same fault, with a cursor where the
refusal says. Where the reading is given up for want of depth nothing is said. -/
inductive Follows {α : Type} (width : Nat) (after : α → List Lexeme → Cursor → Prop) :
    Except Fault α × Cursor → Except Refusal (WithRest α) → Prop
  | ok {a : α} {rest : List Lexeme} {cursor : Cursor} (left : after a rest cursor) :
    Follows width after (.ok a, cursor) (.ok (a, rest))
  | refused {fault : Fault} {column : Option Span} {cursor : Cursor}
    (there : cursor.column = column.getD ⟨width, width⟩) :
    Follows width after (.error fault, cursor) (.error ⟨fault, column⟩)
  | spent {fault : Fault} {refusal : Refusal} {cursor : Cursor}
    (given : refusal.raised.code = .internalError) :
    Follows width after (.error fault, cursor) (.error refusal)

/-- A reader that follows a reading of the lexemes before its cursor. -/
abbrev Reads {α : Type} (width : Nat) (x : Reader α)
    (y : List Lexeme → Except Refusal (WithRest α)) : Prop :=
  ∀ {ts : List Lexeme} {cursor : Cursor}, Before width ts cursor →
    Follows width (fun _ => Before width) (x cursor) (y ts)

namespace Reader

variable {α β : Type} {x : Reader α} {f : α → Reader β} {cursor cursor' : Cursor}

/-- After a first part that yields a value, a reader goes on with the value. -/
theorem bind_of_ok {a : α} (h : x cursor = (.ok a, cursor')) : (x >>= f) cursor = f a cursor' := by
  simp only [bind, h]

/-- After a first part that refuses, a reader is at its end. -/
theorem bind_of_error {fault : Fault} (h : x cursor = (.error fault, cursor')) :
    (x >>= f) cursor = (.error fault, cursor') := by
  simp only [bind, h]

end Reader

namespace Follows

variable {α β : Type} {width : Nat} {ts : List Lexeme} {cursor : Cursor}
  {after : α → List Lexeme → Cursor → Prop} {after' : β → List Lexeme → Cursor → Prop}
  {x : Reader α} {y : Except Refusal (WithRest α)}

/-- Two parts follow if each of them does. -/
theorem bind {f : α → Reader β} {g : WithRest α → Except Refusal (WithRest β)}
    (first : Follows width after (x cursor) y)
    (second : ∀ {a rest cursor'}, y = .ok (a, rest) → after a rest cursor' →
      Follows width after' (f a cursor') (g (a, rest))) :
    Follows width after' ((x >>= f) cursor) (y >>= g) := by
  generalize done : x cursor = r at first
  cases first with
  | ok left =>
    rw [Reader.bind_of_ok done]
    exact second rfl left
  | refused there =>
    rw [Reader.bind_of_error done]
    exact .refused there
  | spent given =>
    rw [Reader.bind_of_error done]
    exact .spent given

/-- A first part that follows a reading that succeeds. -/
theorem yields {a : α} {rest : List Lexeme} {f : α → Reader β} {z : Except Refusal (WithRest β)}
    (first : Follows width after (x cursor) (.ok (a, rest)))
    (second : ∀ {cursor'}, after a rest cursor' → Follows width after' (f a cursor') z) :
    Follows width after' ((x >>= f) cursor) z := by
  refine first.bind (g := fun _ => z) ?_
  rintro _ _ _ ⟨⟩ left
  exact second left

/-- A first part that follows a reading that is refused. -/
theorem stops {f : α → Reader β} {refusal : Refusal}
    (first : Follows width after (x cursor) (.error refusal)) :
    Follows width after' ((x >>= f) cursor) (.error refusal) :=
  first.bind (g := fun _ => .error refusal) nofun

/-- What is made of the value afterwards does not matter. -/
theorem map {left : List Lexeme → Cursor → Prop} {f : α → β}
    (first : Follows width (fun _ => left) (x cursor) y) :
    Follows width (fun _ => left) ((x >>= fun a => pure (f a)) cursor)
      (y >>= fun r => pure (f r.1, r.2)) :=
  first.bind fun _ left => .ok left

/-- A reader that tests what the reading tests. -/
theorem ite {p : Prop} [Decidable p] {x' : Reader α} {y' : Except Refusal (WithRest α)}
    (holds : p → Follows width after (x cursor) y)
    (fails : ¬p → Follows width after (x' cursor) y') :
    Follows width after ((if p then x else x') cursor) (if p then y else y') := by
  by_cases h : p
  · rw [if_pos h, if_pos h]
    exact holds h
  · rw [if_neg h, if_neg h]
    exact fails h

/-- A refusal at the token that was come to last. -/
theorem refuse {rest : List Lexeme} (here : At width (front width ts) rest cursor)
    (detail : String) :
    Follows width after (Reader.refuse detail cursor) (Lexeme.refuse ts detail) :=
  .refused here.column

/-- Taking a token. -/
theorem next {f : Option Token → Reader α} (before : Before width ts cursor)
    (step : ∀ {cursor'}, At width (front width ts) ts.tail cursor' →
      Follows width after (f (ts.head?.map Lexeme.token) cursor') y) :
    Follows width after ((Reader.next >>= f) cursor) y := by
  obtain ⟨cursor', taken, -, here⟩ := Cursor.exists_next before
  have yields : Reader.next cursor = (.ok (ts.head?.map Lexeme.token), cursor') := by
    unfold Reader.next
    rw [taken]
  rw [Reader.bind_of_ok yields]
  exact step here

/-- Looking at a token. -/
theorem peek {f : Option Token → Reader α} (before : Before width ts cursor)
    (step : ∀ {cursor'}, At width (front width ts) ts cursor' →
      Follows width after (f (ts.head?.map Lexeme.token) cursor') y) :
    Follows width after ((Reader.peek >>= f) cursor) y := by
  obtain ⟨cursor', looked, here⟩ := Cursor.exists_peek before
  have yields : Reader.peek cursor = (.ok (ts.head?.map Lexeme.token), cursor') := by
    unfold Reader.peek
    rw [looked]
  rw [Reader.bind_of_ok yields]
  exact step here

/-- Asking for the columns. -/
theorem column {f : Span → Reader α} {here : Span} (there : At width here ts cursor)
    (step : Follows width after (f here cursor) y) :
    Follows width after ((Reader.column >>= f) cursor) y := by
  have yields : Reader.column cursor = (.ok here, cursor) := by rw [← there.column, Reader.column]
  rw [Reader.bind_of_ok yields]
  exact step

/-- Asking for the number of tokens. -/
theorem remaining {f : Nat → Reader α} (before : Before width ts cursor)
    (step : Follows width after (f ts.length cursor) y) :
    Follows width after ((Reader.remaining >>= f) cursor) y := by
  have yields : Reader.remaining cursor = (.ok ts.length, cursor) := by
    rw [← before.remaining, Reader.remaining]
  rw [Reader.bind_of_ok yields]
  exact step

/-- Taking a token that has to be the given one. -/
theorem expect {token : Token} {detail : String} {f : Unit → Reader α}
    {g : List Lexeme → Except Refusal (WithRest α)} (before : Before width ts cursor)
    (named : Reader.expectation token = detail)
    (step : ∀ {rest cursor'}, Lexeme.expect token detail ts = .ok rest →
      Before width rest cursor' → Follows width after (f () cursor') (g rest)) :
    Follows width after ((Reader.expect token >>= f) cursor)
      (Lexeme.expect token detail ts >>= g) := by
  have asked : Follows (α := Unit) width (fun _ => Before width) (Reader.expect token cursor)
      (Lexeme.expect token detail ts >>= fun rest => pure ((), rest)) := by
    refine .next before fun here => ?_
    obtain _ | ⟨t, rest⟩ := ts
    · rw [if_neg nofun, named]
      exact .refuse here detail
    · by_cases same : t.token = token
      · have there : Lexeme.expect token detail (t :: rest) = .ok rest := if_pos same
        have found : (t :: rest).head?.map Lexeme.token = some token := congrArg some same
        rw [there, if_pos found]
        exact .ok here.toBefore
      · have away : Lexeme.expect token detail (t :: rest) = Lexeme.refuse (t :: rest) detail :=
          if_neg same
        have missed : (t :: rest).head?.map Lexeme.token ≠ some token :=
          fun equal => same (Option.some.inj equal)
        rw [away, if_neg missed, named]
        exact .refuse here detail
  have regrouped : (Lexeme.expect token detail ts >>= g) =
      ((Lexeme.expect token detail ts >>= fun rest => pure ((), rest)) >>= fun r => g r.2) := by
    rw [bind_assoc]
    rfl
  rw [regrouped]
  refine asked.bind ?_
  intro _ rest _ same left
  obtain ⟨_, there, same⟩ := exists_of_bind_eq_ok same
  cases same
  exact step there left

/-- Taking a token that is the given one. -/
theorem taken {token : Token} {place : Span} {f : Unit → Reader α}
    (before : Before width (⟨token, place⟩ :: ts) cursor)
    (step : ∀ {cursor'}, Before width ts cursor' → Follows width after (f () cursor') y) :
    Follows width after ((Reader.expect token >>= f) cursor) y := by
  have there : Lexeme.expect token (Reader.expectation token) (⟨token, place⟩ :: ts) = .ok ts :=
    if_pos rfl
  have follows := expect (g := fun _ => y) before rfl fun same left => by
    cases there.symm.trans same
    exact step left
  rwa [bind_of_eq_ok there] at follows

/-- Asking whether a statement may end. -/
theorem atEnd {f : Bool → Reader α} (before : Before width ts cursor)
    (step : ∀ {cursor'}, At width (front width ts) ts cursor' →
      Follows width after (f (Lexeme.atEnd ts) cursor') y) :
    Follows width after ((Reader.atEnd >>= f) cursor) y := by
  have asked : Follows width (fun _ => At width (front width ts)) (Reader.atEnd cursor)
      (.ok (Lexeme.atEnd ts, ts)) := by
    refine .peek before fun here => ?_
    obtain _ | ⟨⟨t, column⟩, rest⟩ := ts
    · exact .ok here
    · cases t with
      | word word => cases word <;> exact .ok here
      | _ => exact .ok here
  exact asked.yields step

section Ahead

variable {r : Except Fault α × Cursor} {a : α} {cursor' : Cursor}

/-- A reader follows a reading that succeeds to the same value and the same lexemes ahead. -/
theorem exists_ok (follows : Follows width (fun _ => Before width) r (.ok (a, ts))) :
    ∃ cursor', r = (.ok a, cursor') ∧ cursor'.ahead = ts := by
  cases follows with
  | ok left => exact ⟨_, rfl, left.ahead⟩

/-- A reader that yields a value follows a reading that yields it. -/
theorem eq_ok (follows : Follows width (fun _ => Before width) (.ok a, cursor') y) :
    y = .ok (a, cursor'.ahead) := by
  cases follows with
  | ok left => rw [left.ahead]

end Ahead

end Follows

/-! ## Expressions -/

namespace Reader

variable {width : Nat}

/-- The name of a function is the one that the lexemes give. -/
theorem follows_functionName {ts : List Lexeme} {cursor : Cursor}
    (before : Before width ts cursor) :
    Follows width (fun _ => Before width) (functionName cursor)
      (.ok (Lexeme.functionName ts)) := by
  refine .peek before fun here => ?_
  obtain _ | ⟨⟨t, column⟩, rest⟩ := ts
  · exact .ok here.toBefore
  · cases t with
    | name i => exact .next here.toBefore fun after => .ok after.toBefore
    | _ => exact .ok here.toBefore

section Step

variable {depth : Nat}
  (expression : ∀ level, Reads width (expressionAt depth level) (Expr.expression depth level))
  (arguments : Reads width (argumentsTo depth) (Expr.arguments depth))

include expression arguments

/-- Operands, given that the expressions and arguments in them are read. -/
theorem reads_operand_step : Reads width (operand (depth + 1)) (Expr.operand (depth + 1)) := by
  intro ts cursor before
  -- Both readers branch on the same token, the first one after it has been taken and the second one
  -- before.
  rw [operand.eq_def]
  refine .next before fun here => ?_
  obtain _ | ⟨⟨t, column⟩, rest⟩ := ts
  · exact .refuse here _
  have after := here.toBefore
  cases t with
  | leftParen =>
    refine (expression 0 after).bind fun _ left => ?_
    exact .expect left rfl fun _ left => .ok left
  | name i =>
    refine .column here (.peek after fun there => ?_)
    obtain _ | ⟨⟨t, place⟩, rest⟩ := rest
    · exact .ok there.toBefore
    · cases t with
      | leftParen => exact .taken there.toBefore fun left => (arguments left).map
      | _ => exact .ok there.toBefore
  | word word =>
    cases word with
    | FN =>
      refine .column here ?_
      rw [Expr.operand.eq_def]
      dsimp only
      have named := follows_functionName after
      rw [List.tail_cons] at named
      generalize Lexeme.functionName rest = r at named ⊢
      obtain ⟨i, next⟩ := r
      refine named.yields fun left => .peek left fun there => ?_
      obtain _ | ⟨⟨t, place⟩, next⟩ := next
      · exact .ok there.toBefore
      · cases t with
        | leftParen => exact .taken there.toBefore fun left => (arguments left).map
        | _ => exact .ok there.toBefore
    | _ => exact .refuse here _
  | number s =>
    refine .column here ?_
    rw [Expr.operand.eq_def]
    dsimp only
    cases Numeral.read? s.toList with
    | some x => exact .ok after
    | none => exact .refuse here _
  | string s => exact .column here (.ok after)
  | operator op =>
    cases op with
    | not => exact .column here (expression _ after).map
    | binary op =>
      cases op with
      | subtract => exact .column here (expression _ after).map
      | add => exact expression _ after
      | _ => exact .refuse here _
  | _ => exact .refuse here _

end Step

/-- The readers of expressions follow the readings of the same depth. -/
theorem reads_of_depth (depth : Nat) :
    (∀ level, Reads width (expressionAt depth level) (Expr.expression depth level)) ∧
      Reads width (operand depth) (Expr.operand depth) ∧
      (∀ level left, Reads width (operators depth level left) (Expr.operators depth level left)) ∧
      Reads width (argumentsTo depth) (Expr.arguments depth) := by
  induction depth with
  | zero =>
    exact ⟨fun _ _ _ _ => .spent rfl, fun _ => .spent rfl, fun _ _ _ _ _ => .spent rfl,
      fun _ => .spent rfl⟩
  | succ depth ih =>
    obtain ⟨expressionIh, operandIh, operatorsIh, argumentsIh⟩ := ih
    refine ⟨fun level ts cursor before => ?_, reads_operand_step expressionIh argumentsIh,
      fun level left ts cursor before => ?_, fun {ts cursor} before => ?_⟩
    · exact (operandIh before).bind fun _ after => operatorsIh level _ after
    · refine .peek before fun here => ?_
      obtain _ | ⟨⟨t, column⟩, rest⟩ := ts
      · exact .ok here.toBefore
      cases t with
      | operator op =>
        cases op with
        | not => exact .ok here.toBefore
        | binary op =>
          refine .ite (fun _ => .ok here.toBefore) fun _ => .next here.toBefore fun there => ?_
          refine .column there ((expressionIh _ there.toBefore).bind fun _ after => ?_)
          exact operatorsIh level _ after
      | _ => exact .ok here.toBefore
    · refine (expressionIh 0 before).bind fun {_ rest _} _ left => .next left fun here => ?_
      obtain _ | ⟨⟨t, column⟩, rest⟩ := rest
      · exact .refuse here _
      cases t with
      | rightParen => exact .ok here.toBefore
      | comma => exact (argumentsIh here.toBefore).map
      | _ => exact .refuse here _

/-- The depth that is given to a reader of expressions is the one that suffices. -/
theorem follows_depth {ts : List Lexeme} {cursor : Cursor} (before : Before width ts cursor) :
    Follows width (fun _ => Before width) (depth cursor) (.ok (Expr.depthFor ts, ts)) :=
  .remaining before (.ok before)

/-- Expressions are read as the lexemes are. -/
theorem reads_expression : Reads width expression Expr.read :=
  fun before => (follows_depth before).yields ((reads_of_depth _).1 0)

/-- Arguments are read as the lexemes are, after their opening parenthesis. -/
theorem follows_arguments {ts : List Lexeme} {cursor : Cursor} {place : Span}
    (before : Before width (⟨.leftParen, place⟩ :: ts) cursor) :
    Follows width (fun _ => Before width) (arguments cursor) (Expr.readArguments ts) :=
  .taken before fun left => (follows_depth left).yields (reads_of_depth _).2.2.2

end Reader

/-! ## Commands -/

namespace Command

/-- Reads a data item; where none stands, the item is empty. -/
def readDatum : List Lexeme → WithRest Datum
  | ⟨.string s, _⟩ :: rest => (.quoted s, rest)
  | ⟨.datum s, _⟩ :: rest => (unquotedItem s, rest)
  | ts => (.unquoted "", ts)

/-- A data item leaves no more lexemes than there were. -/
theorem length_readDatum (ts : List Lexeme) : (readDatum ts).2.length ≤ ts.length := by
  unfold readDatum
  split
  · exact Nat.le_succ _
  · exact Nat.le_succ _
  · exact Nat.le_refl _

/-- Data items are read one by one, as long as a comma follows. -/
theorem readData_eq (ts : List Lexeme) :
    readData ts = afterItem (readDatum ts).1 (readDatum ts).2 := by
  obtain _ | ⟨⟨t, column⟩, rest⟩ := ts
  · rfl
  cases t with
  | string s => exact readData_string s column rest
  | datum s => exact readData_datum s column rest
  | _ => rfl

/-- Reads the parameters of a function, if it has some. -/
def readParameterList : List Lexeme → Except Refusal (WithRest (List Ident))
  | ⟨.leftParen, _⟩ :: rest => readParameters rest
  | ts => pure ([], ts)

/-- A function definition goes on with its parameters, if it has some, and its body. -/
theorem readSignature_eq (column : Span) (i : Ident) (ts : List Lexeme) :
    readSignature column i ts =
      readParameterList ts >>= fun r => readBody column i r.1 r.2 := by
  obtain _ | ⟨⟨t, place⟩, rest⟩ := ts
  · rfl
  · cases t <;> rfl

/-- Reads what follows `NEXT`. -/
def readNext (column : Span) : List Lexeme → Except Refusal (WithRest (List Command))
  | ⟨.name i, place⟩ :: rest => readNextNames (⟨.name i, place⟩ :: rest)
  | ts => pure ([.next column none], ts)

end Command

namespace Reader

variable {width : Nat} {ts : List Lexeme} {cursor : Cursor}

/-- After a name the cursor stands at it. -/
theorem follows_name (before : Before width ts cursor) :
    Follows width (fun _ => At width (front width ts)) (name cursor) (Lexeme.name ts) := by
  refine .next before fun here => ?_
  obtain _ | ⟨⟨t, column⟩, rest⟩ := ts
  · exact .refuse here _
  cases t with
  | name i => exact .column here (.ok here)
  | _ => exact .refuse here _

/-- After a name that may be assigned to the cursor stands at it. -/
theorem follows_targetName (before : Before width ts cursor) :
    Follows width (fun _ => At width (front width ts)) (targetName cursor)
      (Target.readName ts) :=
  (follows_name before).bind fun _ here => .ite (fun _ => .refuse here _) fun _ => .ok here

/-- Targets are read as the lexemes are. -/
theorem reads_target : Reads width target Target.read := by
  intro ts cursor before
  refine (follows_targetName before).bind fun {_ rest _} _ after => ?_
  refine .peek after.toBefore fun here => ?_
  obtain _ | ⟨⟨t, column⟩, rest⟩ := rest
  · exact .ok here.toBefore
  cases t with
  | leftParen => exact (follows_arguments here.toBefore).map
  | _ => exact .ok here.toBefore

/-- Line numbers are read as the lexemes are. -/
theorem reads_lineNumber : Reads width lineNumber Lexeme.lineNumber := by
  intro ts cursor before
  refine .next before fun here => ?_
  obtain _ | ⟨⟨t, column⟩, rest⟩ := ts
  · exact .refuse here _
  change Follows width _ (t.lineNumber, _) _
  unfold Lexeme.lineNumber
  dsimp only
  cases t.lineNumber with
  | ok n => exact .ok here.toBefore
  | error fault => exact .refused here.column

/-- After a list of targets the cursor stands at what follows it. -/
theorem follows_separated_target {count : Nat} (before : Before width ts cursor) :
    Follows width (fun _ rest => At width (front width rest) rest) (separated target count cursor)
      (Target.readList count ts) := by
  induction count generalizing ts cursor with
  | zero => exact .spent rfl
  | succ count ih =>
    refine (reads_target before).bind fun {_ rest _} _ after => .peek after fun here => ?_
    obtain _ | ⟨⟨t, column⟩, rest⟩ := rest
    · exact .ok here
    cases t with
    | comma =>
      exact .next here.toBefore fun there => (ih there.toBefore).bind fun _ left => .ok left
    | _ => exact .ok here

/-- The targets of a list are counted by the lexemes ahead. -/
theorem follows_targets (before : Before width ts cursor) :
    Follows width (fun _ rest => At width (front width rest) rest) (list target cursor)
      (Target.readList (ts.length + 1) ts) :=
  .remaining before (follows_separated_target before)

/-- Line numbers in a list are read as the lexemes are. -/
theorem follows_separated_lineNumber {count : Nat} (enough : ts.length < count)
    (before : Before width ts cursor) :
    Follows width (fun _ => Before width) (separated lineNumber count cursor)
      (Command.readLines ts) := by
  induction count generalizing ts cursor with
  | zero => exact absurd enough (Nat.not_lt_zero _)
  | succ count ih =>
    rw [Command.readLines_eq]
    refine (reads_lineNumber before).bind fun {_ rest _} read after => .peek after fun here => ?_
    have shorter := (Lexeme.steady_lineNumber.apply read).1
    obtain _ | ⟨⟨t, column⟩, rest⟩ := rest
    · exact .ok here.toBefore
    cases t with
    | comma =>
      have less : rest.length < count := by
        rw [List.length_cons] at shorter
        omega
      exact .next here.toBefore fun there => (ih less there.toBefore).map
    | _ => exact .ok here.toBefore

/-- Data items are read as the lexemes are. -/
theorem follows_datum (before : Before width ts cursor) :
    Follows width (fun _ => Before width) (datum cursor) (.ok (Command.readDatum ts)) := by
  refine .peek before fun here => ?_
  obtain _ | ⟨⟨t, column⟩, rest⟩ := ts
  · exact .ok here.toBefore
  cases t with
  | string | datum => exact .next here.toBefore fun there => .ok there.toBefore
  | _ => exact .ok here.toBefore

/-- Data items in a list are read as the lexemes are. -/
theorem follows_separated_datum {count : Nat} (enough : ts.length < count)
    (before : Before width ts cursor) :
    Follows width (fun _ => Before width) (separated datum count cursor)
      (.ok (Command.readData ts)) := by
  induction count generalizing ts cursor with
  | zero => exact absurd enough (Nat.not_lt_zero _)
  | succ count ih =>
    have read := follows_datum before
    have shorter := Command.length_readDatum ts
    rw [Command.readData_eq]
    generalize Command.readDatum ts = r at read shorter ⊢
    obtain ⟨first, rest⟩ := r
    refine read.yields fun after => .peek after fun here => ?_
    obtain _ | ⟨⟨t, column⟩, rest⟩ := rest
    · exact .ok here.toBefore
    cases t with
    | comma =>
      have less : rest.length < count := Nat.lt_of_lt_of_le shorter (Nat.le_of_lt_succ enough)
      exact .next here.toBefore fun there => (ih less there.toBefore).yields fun left => .ok left
    | _ => exact .ok here.toBefore

/-- Parameters are read as the lexemes are. -/
theorem follows_parametersTo {count : Nat} (enough : ts.length < count)
    (before : Before width ts cursor) :
    Follows width (fun _ => Before width) (parametersTo count cursor)
      (Command.readParameters ts) := by
  induction count generalizing ts cursor with
  | zero => exact absurd enough (Nat.not_lt_zero _)
  | succ count ih =>
    have named := follows_name before
    obtain _ | ⟨⟨t, column⟩, rest⟩ := ts
    · exact named.stops
    cases t with
    | name i =>
      refine named.yields fun after => .next after.toBefore fun here => ?_
      obtain _ | ⟨⟨t, place⟩, rest⟩ := rest
      · exact .refuse here _
      cases t with
      | rightParen => exact .ok here.toBefore
      | comma =>
        have less : rest.length < count := by
          rw [List.length_cons, List.length_cons] at enough
          omega
        exact (ih less here.toBefore).map
      | _ => exact .refuse here _
    | _ => exact named.stops

/-- The parameters of a function are read as the lexemes are, if it has some. -/
theorem reads_parameters : Reads width parameters Command.readParameterList := by
  intro ts cursor before
  refine .peek before fun here => ?_
  obtain _ | ⟨⟨t, column⟩, rest⟩ := ts
  · exact .ok here.toBefore
  cases t with
  | leftParen =>
    refine .next here.toBefore fun there => .remaining there.toBefore ?_
    exact follows_parametersTo (Nat.lt_succ_self _) there.toBefore
  | _ => exact .ok here.toBefore

/-- Function definitions are read as the lexemes are. -/
theorem reads_define (column : Span) : Reads width (define column) (Command.readDefine column) := by
  intro ts cursor before
  refine .expect before (by decide) fun {rest _} _ after => ?_
  have named := follows_functionName after
  change Follows width _ _ (Command.readSignature column (Lexeme.functionName rest).1
    (Lexeme.functionName rest).2)
  generalize Lexeme.functionName rest = r at named ⊢
  obtain ⟨i, next⟩ := r
  rw [Command.readSignature_eq]
  refine named.yields fun left => (reads_parameters left).bind fun _ left => ?_
  exact .expect left (by decide) fun _ left => (reads_expression left).map

/-- Array declarations are read as the lexemes are. -/
theorem reads_dimension (column : Span) :
    Reads width (dimension column) (Command.readDimension column) := by
  intro ts cursor before
  refine (follows_targets before).bind fun {targets _ _} _ here => ?_
  dsimp only
  cases targets.mapM Target.element? with
  | some arrays => exact .ok here.toBefore
  | none => exact .refuse here _

/-- Heads of loops are read as the lexemes are. -/
theorem reads_loop (column : Span) : Reads width (loop column) (Command.readLoop column) := by
  intro ts cursor before
  refine (follows_targetName before).bind fun _ here => ?_
  refine .ite (fun _ => .refuse here _) fun _ => ?_
  refine .expect here.toBefore (by decide) fun _ left => ?_
  refine (reads_expression left).bind fun _ left => .expect left (by decide) fun _ left => ?_
  refine (reads_expression left).bind fun {_ rest _} _ left => .peek left fun here => ?_
  obtain _ | ⟨⟨t, place⟩, rest⟩ := rest
  · exact .ok here.toBefore
  cases t with
  | word word =>
    cases word with
    | STEP => exact .next here.toBefore fun there => (reads_expression there.toBefore).map
    | _ => exact .ok here.toBefore
  | _ => exact .ok here.toBefore

/-- Prompts are read as the lexemes are. -/
theorem reads_prompt : Reads width prompt Command.readPrompt := by
  intro ts cursor before
  refine .peek before fun here => ?_
  obtain _ | ⟨⟨t, column⟩, rest⟩ := ts
  · exact .ok here.toBefore
  cases t with
  | string s =>
    refine .next here.toBefore fun there => .next there.toBefore fun after => ?_
    obtain _ | ⟨⟨t, place⟩, rest⟩ := rest
    · exact .refuse after _
    cases t with
    | semicolon | comma => exact .ok after.toBefore
    | _ => exact .refuse after _
  | _ => exact .ok here.toBefore

/-- Assignments are read as the lexemes are. -/
theorem reads_assign (column : Span) : Reads width (assign column) (Command.readAssign column) :=
  fun before => (reads_target before).bind fun _ left =>
    .expect left (by decide) fun _ left => (reads_expression left).map

/-- A name after `NEXT` is read as the lexemes are. -/
theorem follows_nextName (before : Before width ts cursor) :
    Follows width (fun _ => Before width) (nextName cursor)
      (Lexeme.name ts >>= fun r => pure (.next r.1.1 (some r.1.2), r.2)) :=
  (follows_name before).bind fun _ here => .ok here.toBefore

/-- The names after `NEXT` are read as the lexemes are. -/
theorem follows_separated_nextName {count : Nat} (enough : ts.length < count)
    (before : Before width ts cursor) :
    Follows width (fun _ => Before width) (separated nextName count cursor)
      (Command.readNextNames ts) := by
  induction count generalizing ts cursor with
  | zero => exact absurd enough (Nat.not_lt_zero _)
  | succ count ih =>
    have named := follows_nextName before
    obtain _ | ⟨⟨t, column⟩, rest⟩ := ts
    · exact named.stops
    cases t with
    | name i =>
      refine named.yields fun after => .peek after fun here => ?_
      obtain _ | ⟨⟨t, place⟩, rest⟩ := rest
      · exact .ok here.toBefore
      cases t with
      | comma =>
        have less : rest.length < count := by
          rw [List.length_cons, List.length_cons] at enough
          omega
        exact .next here.toBefore fun there => (ih less there.toBefore).map
      | _ => exact .ok here.toBefore
    | _ => exact named.stops

/-- What follows `NEXT` is read as the lexemes are. -/
theorem reads_nextNames (column : Span) :
    Reads width (nextNames column) (Command.readNext column) := by
  intro ts cursor before
  refine .peek before fun here => ?_
  obtain _ | ⟨⟨t, place⟩, rest⟩ := ts
  · exact .ok here.toBefore
  cases t with
  | name i =>
    refine .remaining here.toBefore ?_
    exact follows_separated_nextName (Nat.lt_succ_self _) here.toBefore
  | _ => exact .ok here.toBefore

/-- The items of a `PRINT` are read as the lexemes are. -/
theorem reads_itemsTo (count : Nat) : Reads width (itemsTo count) (Command.readItems count) := by
  induction count with
  | zero => exact fun _ => .spent rfl
  | succ count ih =>
    intro ts cursor before
    refine .atEnd before fun here => .ite (fun _ => .ok here.toBefore) fun _ => ?_
    refine .peek here.toBefore fun there => ?_
    obtain _ | ⟨⟨t, column⟩, rest⟩ := ts
    · exact (reads_expression there.toBefore).bind fun _ left => (ih left).map
    cases t with
    | semicolon | comma =>
      refine .next there.toBefore fun after => .column after (ih after.toBefore).map
    | _ => exact (reads_expression there.toBefore).bind fun _ left => (ih left).map

/-- Computed jumps are read as the lexemes are. -/
theorem reads_computed (column : Span) : Reads width (computed column) (Command.readOn column) := by
  intro ts cursor before
  refine (reads_expression before).bind fun {_ rest _} _ left => .next left fun here => ?_
  obtain _ | ⟨⟨t, place⟩, rest⟩ := rest
  · exact .refuse here _
  have lines := follows_separated_lineNumber (Nat.lt_succ_self _) here.toBefore
  cases t with
  | word word =>
    cases word with
    | GOTO | GO_TO | GOSUB | GO_SUB => exact (Follows.remaining here.toBefore lines).map
    | _ => exact .refuse here _
  | _ => exact .refuse here _

/-- Remarks are read as the lexemes are. -/
theorem follows_remark (whole : List Lexeme) (column : Span) (before : Before width ts cursor) :
    Follows width (fun _ => Before width) (remark column cursor)
      (Command.readSingle whole .REM column ts) := by
  refine .peek before fun here => ?_
  obtain _ | ⟨⟨t, place⟩, rest⟩ := ts
  · exact .ok here.toBefore
  cases t with
  | remark s => exact .next here.toBefore fun there => .ok there.toBefore
  | _ => exact .ok here.toBefore

/-- The line a `RESTORE` goes to is read as the lexemes are. -/
theorem reads_restore (column : Span) :
    Reads width (restore column) (Command.readRestore column) := by
  intro ts cursor before
  refine .peek before fun here => ?_
  obtain _ | ⟨⟨t, place⟩, rest⟩ := ts
  · exact .ok here.toBefore
  cases t with
  | number | string => exact (reads_lineNumber here.toBefore).map
  | _ => exact .ok here.toBefore

/-- What a keyword starts is read as the lexemes are; a keyword that starts nothing is refused where
it stands. -/
theorem follows_command (whole : List Lexeme) (column : Span) (word : Word)
    (there : At width (front width whole) ts cursor) :
    Follows width (fun _ => Before width) (command word column cursor)
      (Command.readSingle whole word column ts) := by
  have before := there.toBefore
  cases word with
  | CLEAR | END | RETURN | STOP => exact .ok before
  | DATA =>
    have items : Follows width (fun _ => Before width) (list datum cursor)
        (.ok (Command.readData ts)) :=
      .remaining before (follows_separated_datum (Nat.lt_succ_self _) before)
    exact items.yields fun left => .ok left
  | DEF => exact reads_define column before
  | DIM => exact reads_dimension column before
  | FOR => exact reads_loop column before
  | GOSUB | GO_SUB | GOTO | GO_TO => exact (reads_lineNumber before).map
  | INPUT =>
    refine (reads_prompt before).bind fun _ left => (follows_targets left).bind fun _ here => ?_
    exact .ok here.toBefore
  | LET => exact reads_assign column before
  | ON => exact reads_computed column before
  | PRINT | QUESTION => exact .remaining before (reads_itemsTo _ before).map
  | READ => exact (follows_targets before).bind fun _ here => .ok here.toBefore
  | REM | APOSTROPHE => exact follows_remark whole column before
  | RESTORE => exact reads_restore column before
  | IF | NEXT | ELSE | FN | STEP | THEN | TO => exact .refuse there _

end Reader

/-! ## Statements -/

/-- A statement may always end behind an `IF`. -/
theorem Statement.readIf_bind_atEnd {β : Type} {depth : Nat} {column : Span} {ts : List Lexeme}
    {code : Array Statement} {f g : WithRest (Array Statement) → Except Refusal β} :
    (readIf (readTo depth) column ts code >>= fun r => if Lexeme.atEnd r.2 then f r else g r) =
      readIf (readTo depth) column ts code >>= f := by
  cases read : readIf (readTo depth) column ts code with
  | error refusal => rfl
  | ok r =>
    have ends := Stops.readIf (stops_readTo depth) column read
    exact if_pos ends.atEnd

namespace Reader

variable {width : Nat} {ts : List Lexeme} {cursor : Cursor} {extend : Extender}
  {extend' : Statement.Extender}

/-- A reader of branches that follows a reading of branches. -/
abbrev Extends (width : Nat) (extend : Extender) (extend' : Statement.Extender) : Prop :=
  ∀ code, Reads width (extend code) fun ts => extend' ts code

/-- A jump at the front of a branch is read as the lexemes are. -/
theorem Extends.jump (branches : Extends width extend extend') (column : Span)
    (code : Array Statement) (before : Before width ts cursor) :
    Follows width (fun _ => Before width)
      ((lineNumber >>= fun line => extend (code.push (.run (.goto column line)))) cursor)
      (Lexeme.lineNumber ts >>= fun r => extend' r.2 (code.push (.run (.goto column r.1)))) :=
  (reads_lineNumber before).bind fun _ left => branches _ left

/-- Branches are read as the lexemes are. -/
theorem Extends.branch (branches : Extends width extend extend') :
    Extends width (branch extend) (Statement.readBranch extend') := by
  intro code ts cursor before
  refine .peek before fun here => ?_
  obtain _ | ⟨⟨t, column⟩, rest⟩ := ts
  · exact branches code here.toBefore
  cases t with
  | number s => exact .column here (branches.jump column code here.toBefore)
  | _ => exact branches code here.toBefore

/-- What follows a predicate is read as the lexemes are. -/
theorem Extends.outcome (branches : Extends width extend extend') :
    Extends width (outcome extend) (Statement.readOutcome extend') := by
  intro code ts cursor before
  refine .next before fun here => ?_
  obtain _ | ⟨⟨t, column⟩, rest⟩ := ts
  · exact .refuse here _
  cases t with
  | word word =>
    cases word with
    | THEN => exact branches.branch code here.toBefore
    | GOTO | GO_TO => exact .column here (branches.jump column code here.toBefore)
    | _ => exact .refuse here _
  | _ => exact .refuse here _

/-- An `IF` is read as the lexemes are. -/
theorem Extends.conditional (branches : Extends width extend extend') (column : Span) :
    Extends width (conditional extend column) (Statement.readIf extend' column) := by
  intro code ts cursor before
  refine (reads_expression before).bind fun _ left => ?_
  refine (branches.outcome _ left).bind fun {_ rest _} _ left => .peek left fun here => ?_
  obtain _ | ⟨⟨t, place⟩, rest⟩ := rest
  · exact .ok here.toBefore
  cases t with
  | word word =>
    cases word with
    | ELSE =>
      refine .next here.toBefore fun there => .column there ?_
      exact (branches.branch _ there.toBefore).bind fun _ left => .ok left
    | _ => exact .ok here.toBefore
  | _ => exact .ok here.toBefore

/-- The one command of a statement is read as the lexemes are, and added to those already read. -/
theorem follows_single (code : Array Statement) {x : Reader Command}
    {y : Except Refusal (WithRest Command)}
    (read : Follows width (fun _ => Before width) (x cursor) y) :
    Follows width (fun _ => Before width) ((x >>= fun c => pure (code.push (.run c))) cursor)
      ((y >>= fun r => pure ([r.1], r.2)) >>= fun r =>
        pure (code ++ r.1.map Statement.run, r.2)) := by
  rw [bind_assoc]
  exact read.bind fun _ left => .ok left

/-- What a keyword other than `IF` starts is read as the lexemes are. -/
theorem follows_keyword (extend : Extender) (code : Array Statement) {word : Word} {column : Span}
    (simple : word ≠ .IF) (there : At width column ts cursor) :
    Follows width (fun _ => Before width) (keyword extend word code cursor)
      (Command.readStatement (⟨.word word, column⟩ :: ts) >>= fun r =>
        pure (code ++ r.1.map Statement.run, r.2)) := by
  refine .column there ?_
  have single := follows_single code
    (follows_command (⟨.word word, column⟩ :: ts) column word there)
  cases word with
  | IF => exact absurd rfl simple
  | NEXT =>
    have same : Command.readStatement (⟨.word .NEXT, column⟩ :: ts) =
        Command.readNext column ts := by
      obtain _ | ⟨⟨t, place⟩, rest⟩ := ts
      · rfl
      · cases t <;> rfl
    rw [same]
    exact (reads_nextNames column there.toBefore).map
  | _ => exact single

/-- A statement other than an `IF` is read as the lexemes are. -/
theorem follows_statement (extend : Extender) (code : Array Statement)
    (simple : ts.head?.map Lexeme.token ≠ some (.word .IF)) (before : Before width ts cursor) :
    Follows width (fun _ => Before width) (statement extend code cursor)
      (Command.readStatement ts >>= fun r => pure (code ++ r.1.map Statement.run, r.2)) := by
  refine .peek before fun here => ?_
  obtain _ | ⟨⟨t, column⟩, rest⟩ := ts
  · exact .next here.toBefore fun there => .refuse there _
  cases t with
  | name i => exact .column here (follows_single code (reads_assign column here.toBefore))
  | word word =>
    refine .next here.toBefore fun there => follows_keyword extend code ?_ there
    rintro rfl
    exact simple rfl
  | _ => exact .next here.toBefore fun there => .refuse there _

/-- Behind a statement the next one is read, or the statement is refused where it goes on. -/
theorem Extends.close (branches : Extends width extend extend') {x : Reader (Array Statement)}
    {y : Except Refusal (WithRest (Array Statement))}
    (read : Follows width (fun _ => Before width) (x cursor) y) :
    Follows width (fun _ => Before width)
      ((do
        let code ← x
        if ← atEnd then extend code
        else do
          let _ ← next
          refuse "UNEXPECTED TOKEN" : Reader (Array Statement)) cursor)
      (y >>= fun r => if Lexeme.atEnd r.2 then extend' r.2 r.1
        else Lexeme.refuse r.2 "UNEXPECTED TOKEN") := by
  refine read.bind fun _ left => .atEnd left fun there => ?_
  refine .ite (fun _ => branches _ there.toBefore) fun _ => ?_
  exact .next there.toBefore fun after => .refuse after _

/-- Statements up to where reading stops are read as the lexemes are. Behind an `IF` reading has
stopped, so that nothing is refused there. -/
theorem extends_statements (depth : Nat) :
    Extends width (statements depth) (Statement.readTo depth) := by
  induction depth with
  | zero => exact fun _ _ _ _ => .spent rfl
  | succ depth ih =>
    intro code ts cursor before
    refine .peek before fun here => ?_
    obtain _ | ⟨⟨t, column⟩, rest⟩ := ts
    · exact .ok here.toBefore
    have single (simple : t ≠ .word .IF) := by
      have unlike : (⟨t, column⟩ :: rest).head?.map Lexeme.token ≠ some (.word .IF) :=
        fun same => simple (Option.some.inj same)
      exact ih.close (follows_statement (statements depth) code unlike here.toBefore)
    rw [bind_assoc] at single
    cases t with
    | endOfLine => exact .ok here.toBefore
    | colon => exact .next here.toBefore fun there => ih code there.toBefore
    | word word =>
      cases word with
      | ELSE => exact .ok here.toBefore
      | IF =>
        have conditional : Follows width (fun _ => Before width)
            (statement (statements depth) code _)
            (Statement.readIf (Statement.readTo depth) column rest code) :=
          .peek here.toBefore fun there => .next there.toBefore fun after =>
            .column after (ih.conditional column code after.toBefore)
        have closed := ih.close conditional
        rwa [Statement.readIf_bind_atEnd] at closed
      | _ => exact single nofun
    | _ => exact single nofun

end Reader

/-! ## Lines -/

namespace Statement

/-- The statements of a line with the given number and tokens, read from its lexemes. -/
def readTokens (line : Option LineNumber) (tokens : List Token) :
    Except Fault (List Statement) :=
  match readLine (Lexeme.place 0 tokens) with
  | .ok code => .ok code.toList
  | .error refusal => .error (refusal.fault line (Lexeme.width tokens))

/-- The statements of a line are those that its lexemes give, and the fault of a line that is
refused is the one that the lexemes give, with its columns. -/
theorem parse_eq (line : Option LineNumber) (tokens : List Token) :
    parse line tokens = readTokens line tokens := by
  have before := Cursor.before_start tokens
  have unspent := unspent_readLine (Lexeme.place 0 tokens)
  unfold parse readTokens
  unfold readLine at unspent ⊢
  dsimp only
  rw [before.remaining]
  generalize Lexeme.place 0 tokens = ts at before unspent ⊢
  have read : Follows _ (fun _ => Before _) (Reader.statements (ts.length + 1) #[] _)
      (readTo (ts.length + 1) ts #[]) := Reader.extends_statements _ _ before
  generalize Reader.statements _ _ _ = result at read ⊢
  generalize readTo _ _ _ = reading at read unspent ⊢
  cases read with
  | spent given => exact absurd given (unspent _ rfl)
  | refused there =>
    dsimp only
    rw [there]
    rfl
  | @ok code rest cursor left =>
    obtain ⟨cursor', taken, -, here⟩ := Cursor.exists_next left
    have there := here.column
    dsimp only
    rw [taken]
    obtain _ | ⟨⟨t, column⟩, rest⟩ := rest
    · rfl
    cases t with
    | endOfLine => rfl
    | _ =>
      change Except.error _ = Except.error _
      rw [there]
      rfl

/-- The depth that the readers are given suffices for every line, also for one that is refused: what
is refused is refused by a rule of the language. -/
theorem code_ne_internalError_of_parse {line : Option LineNumber} {tokens : List Token}
    {fault : Fault} (refused : parse line tokens = .error fault) :
    fault.code ≠ .internalError := by
  have unspent := unspent_readLine (Lexeme.place 0 tokens)
  rw [parse_eq, readTokens] at refused
  cases read : readLine (Lexeme.place 0 tokens) with
  | ok code =>
    rw [read] at refused
    cases refused
  | error refusal =>
    rw [read] at refused
    cases refused
    exact unspent refusal read

end Statement

namespace Line

/-- The first piece of a line that is no token of the language is the first such lexeme. -/
theorem unknownAfter?_eq (column : Span) (tokens : List Token) :
    unknownAfter? column tokens =
      (Lexeme.place column.stop tokens).findSome? Lexeme.unknown? := by
  induction tokens generalizing column with
  | nil => rfl
  | cons t ts ih =>
    cases t with
    | unknown s => rfl
    | _ => exact ih _

/-- The place of an unknown piece of a line is the one that the lexemes give. -/
theorem firstUnknown?_eq (line : Line) :
    line.firstUnknown? = (Lexeme.place 0 line.tokens).findSome? Lexeme.unknown? :=
  unknownAfter?_eq ⟨0, 0⟩ line.tokens

end Line

end NumberedBasic
