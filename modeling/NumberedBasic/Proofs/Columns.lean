import NumberedBasic.Line
import NumberedBasic.Proofs.Layout
import Mathlib.Data.List.Forall2

/-!
# Columns point at tokens

The columns of a statement, and those of a fault that a line is refused with, count characters of
the listed line. Each of them is the range of one token in it. Readers see lexemes, which are the
tokens without the blanks; `Lexeme.exists_of_place` leads from a lexeme back to its token. The main
statement says of a line that is accepted that each column belongs to the right token and that the
columns follow the order of the text, and of a line that is refused that the fault is at a token or
at the end.
-/

set_option autoImplicit false

namespace NumberedBasic

namespace Token

/-- The text of some tokens in a listing. -/
def display (ts : List Token) : String :=
  String.join (ts.map text)

/-- The characters of the token at `i` in the text of all. -/
def rangeAt (ts : List Token) (i : Nat) : Span :=
  ⟨(display (ts.take i)).length, (display (ts.take (i + 1))).length⟩

/-- The tokens before the one at `i` that are not blank. -/
def solidBefore (ts : List Token) (i : Nat) : List Token :=
  (ts.take i).filter isSolid

/-- The text of tokens is as long as the widths of the tokens add up to. -/
theorem length_display (ts : List Token) : (display ts).length = Lexeme.width ts := by
  induction ts with
  | nil => rfl
  | cons t ts ih =>
    rw [Lexeme.width_cons, ← ih]
    simp [display]

/-- The further a position is, the more solid tokens stand before it. -/
theorem length_solidBefore_le {i j : Nat} (ts : List Token) (le : i ≤ j) :
    (solidBefore ts i).length ≤ (solidBefore ts j).length := by
  have part : (ts.take i).Sublist (ts.take j) := by
    rw [← Nat.min_eq_left le, ← List.take_take]
    exact List.take_sublist i (ts.take j)
  exact (part.filter isSolid).length_le

end Token

open Token (rangeAt solidBefore display)

/-- A mark belongs to the token at `i`, which is not blank. -/
def Mark.PointsAt (tokens : List Token) (mark : Mark) (i : Nat) : Prop :=
  ∃ t, tokens[i]? = some t ∧ t.isSolid = true ∧ mark.column = rangeAt tokens i ∧
    mark.Fits (solidBefore tokens i).getLast? t

/-- Marks belong to tokens, one after the other. -/
def Located (tokens : List Token) (marks : List Mark) : Prop :=
  ∃ places, places.Pairwise (· < ·) ∧ List.Forall₂ (Mark.PointsAt tokens) marks places

namespace Lexeme

/-- A lexeme is a token in its place, and the lexemes before it are the tokens before that one. -/
theorem exists_of_place {tokens : List Token} {start i : Nat} {x : Lexeme}
    (found : (place start tokens)[i]? = some x) :
    ∃ j, tokens[j]? = some x.token ∧ x.token.isSolid = true ∧
      x.column = ⟨start + width (tokens.take j), start + width (tokens.take (j + 1))⟩ ∧
      solidBefore tokens j = ((place start tokens).take i).map token := by
  induction tokens generalizing start i with
  | nil => cases found
  | cons t ts ih =>
    by_cases solid : t.isSolid = true
    · rw [place_of_isSolid solid] at found ⊢
      cases i with
      | zero =>
        cases found
        exact ⟨0, rfl, solid, by simp [width], rfl⟩
      | succ i =>
        obtain ⟨j, stands, other, column, before⟩ := ih found
        refine ⟨j + 1, stands, other, ?_, ?_⟩
        · rw [column, List.take_succ_cons, List.take_succ_cons, width_cons, width_cons,
            Nat.add_assoc, Nat.add_assoc]
        · rw [solidBefore, List.take_succ_cons, List.filter_cons_of_pos solid, List.take_succ_cons,
            List.map_cons, ← before, solidBefore]
    · rw [place_of_not_isSolid solid] at found ⊢
      obtain ⟨j, stands, other, column, before⟩ := ih found
      refine ⟨j + 1, stands, other, ?_, ?_⟩
      · rw [column, List.take_succ_cons, List.take_succ_cons, width_cons, width_cons,
          Nat.add_assoc, Nat.add_assoc]
      · rw [solidBefore, List.take_succ_cons, List.filter_cons_of_neg solid, ← before, solidBefore]

/-- A lexeme of a whole line. -/
theorem exists_of_place_zero {tokens : List Token} {i : Nat} {x : Lexeme}
    (found : (place 0 tokens)[i]? = some x) :
    ∃ j, tokens[j]? = some x.token ∧ x.token.isSolid = true ∧ x.column = rangeAt tokens j ∧
      solidBefore tokens j = ((place 0 tokens).take i).map token := by
  obtain ⟨j, stands, solid, column, before⟩ := exists_of_place found
  refine ⟨j, stands, solid, ?_, before⟩
  rw [column, rangeAt, Token.length_display, Token.length_display, Nat.zero_add, Nat.zero_add]

end Lexeme

/-- In front of a position stands the last of the tokens that are passed on the way to it. -/
theorem Mark.before_eq {source : List Lexeme} {i : Nat} (inside : i < source.length) :
    Mark.before source i = ((source.take i).map Lexeme.token).getLast? := by
  cases i with
  | zero => rfl
  | succ i =>
    have found := List.getElem?_eq_getElem (Nat.lt_of_succ_lt inside)
    simp [Mark.before, List.getLast?_take, found]

/-- A mark that points into the solid tokens of a line points at a token of the line itself. -/
theorem Mark.Points.exists_pointsAt {tokens : List Token} {mark : Mark} {i : Nat}
    (points : mark.Points (Lexeme.place 0 tokens) i) :
    ∃ j, mark.PointsAt tokens j ∧ (solidBefore tokens j).length = i := by
  obtain ⟨x, found, column, fits⟩ := points
  have inside := (List.getElem?_eq_some_iff.mp found).1
  obtain ⟨j, stands, solid, range, before⟩ := Lexeme.exists_of_place_zero found
  refine ⟨j, ⟨x.token, stands, solid, column.trans range, ?_⟩, ?_⟩
  · rw [before, ← Mark.before_eq inside]
    exact fits
  · rw [before, List.length_map, List.length_take]
    omega

/-- What is marked while the solid tokens of a line are read is located in the line. -/
theorem Marked.located {tokens : List Token} {n k : Nat} {marks : List Mark}
    (marked : Marked (Lexeme.place 0 tokens) n marks k) : Located tokens marks := by
  suffices ∃ places, (∀ j ∈ places, n ≤ (solidBefore tokens j).length) ∧
      places.Pairwise (· < ·) ∧ List.Forall₂ (Mark.PointsAt tokens) marks places by
    obtain ⟨places, -, ascending, points⟩ := this
    exact ⟨places, ascending, points⟩
  induction marked with
  | nil => exact ⟨[], nofun, .nil, .nil⟩
  | @cons n i k mark marks le points rest ih =>
    obtain ⟨places, later, ascending, others⟩ := ih
    obtain ⟨j, point, count⟩ := points.exists_pointsAt
    refine ⟨j :: places, ?_, .cons ?_ ascending, .cons point others⟩
    · intro p member
      obtain rfl | member := List.mem_cons.mp member
      · omega
      · have := later p member
        omega
    · intro p member
      have := later p member
      -- A place that is not after `j` has no more tokens before it than `j` has.
      by_contra behind
      have := Token.length_solidBefore_le tokens (Nat.le_of_not_lt behind)
      omega

/-- A column is the range of a token that is not blank, or the end of the line. -/
def AtToken (tokens : List Token) (column : Span) : Prop :=
  (∃ i t, tokens[i]? = some t ∧ t.isSolid = true ∧ column = rangeAt tokens i) ∨
    column = ⟨(display tokens).length, (display tokens).length⟩

/-- The column of a solid token is that of a token of the line. -/
theorem atToken_of_place {tokens : List Token} {x : Lexeme} {i : Nat}
    (found : (Lexeme.place 0 tokens)[i]? = some x) : AtToken tokens x.column := by
  obtain ⟨j, stands, solid, range, -⟩ := Lexeme.exists_of_place_zero found
  exact .inl ⟨j, x.token, stands, solid, range⟩

/-- A refusal at a lexeme or at the end of the line becomes a fault at a token or at the end. -/
theorem atToken_fault {tokens : List Token} {e : Refusal} {k : Nat} (number : Option LineNumber)
    (place : e.column = (Lexeme.place 0 tokens)[k]?.map Lexeme.column) :
    AtToken tokens (e.fault number (Lexeme.width tokens)).column := by
  rw [Refusal.fault, place]
  cases found : (Lexeme.place 0 tokens)[k]? with
  | none => exact .inr (by rw [Token.length_display]; rfl)
  | some x => exact atToken_of_place found

/-! ## There are no other columns -/

/-- None of the columns is in use. -/
def Unplaced (marks : List Mark) : Prop :=
  ∀ m ∈ marks, m.column = .none

namespace Unplaced

variable {mark : Mark} {marks others : List Mark}

/-- If no mark of a list has columns, neither the first one nor the others do. -/
theorem of_cons (unplaced : Unplaced (mark :: marks)) : mark.column = .none ∧ Unplaced marks :=
  List.forall_mem_cons.mp unplaced

/-- If no mark of two lists has columns, neither those of one nor those of the other do. -/
theorem of_append (unplaced : Unplaced (marks ++ others)) : Unplaced marks ∧ Unplaced others :=
  List.forall_mem_append.mp unplaced

/-- Where nothing changes an item with no column in use, nothing changes a list of them. -/
theorem map_eq_self {α : Type} {bare : α → α} {columns : α → List Mark} {items : List α}
    (each : ∀ a, Unplaced (columns a) → bare a = a) (unplaced : Unplaced (items.flatMap columns)) :
    items.map bare = items := by
  refine (List.map_congr_left fun a member => each a ?_).trans (List.map_id items)
  exact fun m inside => unplaced m (List.mem_flatMap.mpr ⟨a, member, inside⟩)

end Unplaced

namespace Expr

mutual

/-- An expression without columns is its own bare form. -/
theorem bare_eq_self (e : Expr) (unplaced : Unplaced e.marks) : e.bare = e := by
  cases e with
  | number c x | string c x | scalar c x =>
    obtain ⟨rfl, -⟩ := unplaced.of_cons
    rfl
  | call c n es | user c n es =>
    obtain ⟨rfl, inner⟩ := unplaced.of_cons
    rw [bare, bareAll_eq_self es inner]
  | negate c e | not c e =>
    obtain ⟨rfl, inner⟩ := unplaced.of_cons
    rw [bare, bare_eq_self e inner]
  | binary c op l r =>
    obtain ⟨left, rest⟩ := unplaced.of_append
    obtain ⟨rfl, right⟩ := rest.of_cons
    rw [bare, bare_eq_self l left, bare_eq_self r right]

/-- Expressions without columns are their own bare forms. -/
theorem bareAll_eq_self (es : List Expr) (unplaced : Unplaced (marksAll es)) : bareAll es = es := by
  cases es with
  | nil => rfl
  | cons e es =>
    obtain ⟨first, others⟩ := unplaced.of_append
    rw [bareAll, bare_eq_self e first, bareAll_eq_self es others]

end

end Expr

/-- An array element without columns is its own bare form. -/
theorem Element.bare_eq_self (e : Element) (unplaced : Unplaced e.marks) : e.bare = e := by
  obtain ⟨column, name, subscripts⟩ := e
  obtain ⟨rfl, inner⟩ := unplaced.of_cons
  rw [bare, Expr.bareAll_eq_self subscripts inner]

/-- A target without columns is its own bare form. -/
theorem Target.bare_eq_self (target : Target) (unplaced : Unplaced target.marks) :
    target.bare = target := by
  cases target with
  | scalar c n =>
    obtain ⟨rfl, -⟩ := unplaced.of_cons
    rfl
  | element e => rw [bare, e.bare_eq_self unplaced]

/-- An item to print without columns is its own bare form. -/
theorem PrintItem.bare_eq_self (item : PrintItem) (unplaced : Unplaced item.marks) :
    item.bare = item := by
  cases item with
  | value e => rw [bare, e.bare_eq_self unplaced]
  | comma c | semicolon c =>
    obtain ⟨rfl, -⟩ := unplaced.of_cons
    rfl

/-- A command without columns is its own bare form. -/
theorem Command.bare_eq_self (command : Command) (own : command.mark.column = .none)
    (unplaced : Unplaced command.marks) : command.bare = command := by
  cases command with
  | clear | data | finish | gosub | goto | remark | restore | returnBack | stop =>
    obtain rfl := own
    rfl
  | next c name =>
    cases name <;> (obtain rfl := own; rfl)
  | define c name parameters body =>
    obtain rfl := own
    rw [bare, body.bare_eq_self unplaced]
  | dimension c arrays =>
    obtain rfl := own
    rw [bare, unplaced.map_eq_self Element.bare_eq_self]
  | loop c name first last step =>
    obtain rfl := own
    obtain ⟨start, rest⟩ := unplaced.of_append
    obtain ⟨stop, rest⟩ := rest.of_append
    rw [bare, first.bare_eq_self start, last.bare_eq_self stop]
    cases step with
    | none => rfl
    | some step => rw [Option.map_some, step.bare_eq_self rest]
  | input c prompt targets =>
    obtain rfl := own
    rw [bare, unplaced.map_eq_self Target.bare_eq_self]
  | assign c target value =>
    obtain rfl := own
    obtain ⟨left, right⟩ := unplaced.of_append
    rw [bare, target.bare_eq_self left, value.bare_eq_self right]
  | onGoto c selector lines | onGosub c selector lines =>
    obtain rfl := own
    rw [bare, selector.bare_eq_self unplaced]
  | print c items =>
    obtain rfl := own
    rw [bare, unplaced.map_eq_self PrintItem.bare_eq_self]
  | read c targets =>
    obtain rfl := own
    rw [bare, unplaced.map_eq_self Target.bare_eq_self]

/-- A statement with no column in use is one without columns. -/
theorem Statement.bare_eq_self (s : Statement) (unplaced : Unplaced (s.mark :: s.marks)) :
    s.bare = s := by
  obtain ⟨own, others⟩ := unplaced.of_cons
  cases s with
  | run command => rw [bare, command.bare_eq_self own others]
  | branch c predicate target =>
    obtain rfl := own
    rw [bare, predicate.bare_eq_self others]
  | skip c target =>
    obtain rfl := own
    rfl

/-! ## Accepted and refused lines -/

section Parse

variable {number : Option LineNumber} {tokens : List Token}

/-- All that is accepted from a line is located in it, the statements and their parts. -/
theorem located_of_parse {statements : List Statement}
    (accepted : Statement.parse number tokens = .ok statements) :
    Located tokens (statements.map Statement.mark) ∧
      Located tokens (statements.flatMap Statement.marks) := by
  obtain ⟨code, code', k, read, -, matched⟩ | ⟨e, f, failed, -⟩ :=
    Statement.agree_readLine (.refl (Lexeme.place 0 tokens))
  · rw [Statement.parse_eq, Statement.readTokens, read] at accepted
    cases accepted
    exact ⟨matched.heads.located, matched.marks.located⟩
  · rw [Statement.parse_eq, Statement.readTokens, failed] at accepted
    cases accepted

/-- What is refused in a line is refused at one of its tokens. -/
theorem atToken_of_parse {fault : Fault} (refused : Statement.parse number tokens = .error fault) :
    AtToken tokens fault.column := by
  obtain ⟨code, code', k, read, -, -⟩ | ⟨e, f, failed, -, -, -, -, k, place⟩ :=
    Statement.agree_readLine (.refl (Lexeme.place 0 tokens))
  · rw [Statement.parse_eq, Statement.readTokens, read] at refused
    cases refused
  · rw [Statement.parse_eq, Statement.readTokens, failed] at refused
    cases refused
    exact atToken_fault number place

/-- Unknown characters are tokens as well. -/
theorem atToken_of_firstUnknown? {line : Line} {s : String} {column : Span}
    (unknown : line.firstUnknown? = some (s, column)) : AtToken line.tokens column := by
  rw [Line.firstUnknown?_eq] at unknown
  obtain ⟨x, member, found⟩ := List.exists_of_findSome?_eq_some unknown
  obtain ⟨i, stands⟩ := List.mem_iff_getElem?.mp member
  obtain ⟨t, c⟩ := x
  cases t with
  | unknown s =>
    cases found
    exact atToken_of_place stands
  | _ => cases found

/-- A line that is refused as a whole is refused at one of its tokens. -/
theorem atToken_of_statements {fault : Fault}
    (refused : Line.statements ⟨number, tokens⟩ = .error fault) : AtToken tokens fault.column := by
  cases unknown : Line.firstUnknown? ⟨number, tokens⟩ with
  | none =>
    rw [Line.statements, unknown] at refused
    exact atToken_of_parse refused
  | some found =>
    rw [Line.statements, unknown] at refused
    cases refused
    exact atToken_of_firstUnknown? unknown

end Parse

/-- Each column of the statements of a line is the range of the right token, in the order of the
text: those that the statements start with and, inside of them, all others. A line that is refused
is refused at a token or at its end. -/
theorem columns_point_at_tokens (number : Option LineNumber) (tokens : List Token) :
    (∀ statements, Statement.parse number tokens = .ok statements →
      Located tokens (statements.map Statement.mark) ∧
      Located tokens (statements.flatMap Statement.marks)) ∧
    (∀ s : Statement, Unplaced (s.mark :: s.marks) → s.bare = s) ∧
    ∀ fault, Statement.parse number tokens = .error fault ∨
      Line.statements ⟨number, tokens⟩ = .error fault → AtToken tokens fault.column := by
  refine ⟨fun statements accepted => located_of_parse accepted, Statement.bare_eq_self, ?_⟩
  rintro fault (refused | refused)
  · exact atToken_of_parse refused
  · exact atToken_of_statements refused

/-- In `IF A THEN 20 ELSE B=C` the jump has the column of its line number and the assignment that of
its name, which is also the column of what is assigned to. `PRINT )` is refused at the
parenthesis. -/
theorem columns_point_at_tokens_branches :
    (∃ tokens statements,
      tokens = [.word .IF, .blank 1, .name (.plain "A"), .blank 1, .word .THEN, .blank 1,
        .number "20", .blank 1, .word .ELSE, .blank 1, .name (.plain "B"),
        .operator (.binary .equal), .name (.plain "C")] ∧
      Statement.parse none tokens = .ok statements ∧
      (statements.map Statement.mark).map Mark.column =
        [⟨0, 2⟩, ⟨10, 12⟩, ⟨13, 17⟩, ⟨18, 19⟩] ∧
      (statements.flatMap Statement.marks).map Mark.column = [⟨3, 4⟩, ⟨18, 19⟩, ⟨20, 21⟩] ∧
      Located tokens (statements.map Statement.mark) ∧
      Located tokens (statements.flatMap Statement.marks)) ∧
    ∃ fault, Statement.parse none [.word .PRINT, .blank 1, .rightParen] = .error fault ∧
      fault.column = ⟨6, 7⟩ ∧ AtToken [.word .PRINT, .blank 1, .rightParen] fault.column := by
  constructor
  · let tokens : List Token := [.word .IF, .blank 1, .name (.plain "A"), .blank 1, .word .THEN,
      .blank 1, .number "20", .blank 1, .word .ELSE, .blank 1, .name (.plain "B"),
      .operator (.binary .equal), .name (.plain "C")]
    have accepted : Statement.parse none tokens =
        .ok [.branch ⟨0, 2⟩ (.scalar ⟨3, 4⟩ (.plain "A")) 3, .run (.goto ⟨10, 12⟩ 20),
          .skip ⟨13, 17⟩ 4, .run (.assign ⟨18, 19⟩ (.scalar ⟨18, 19⟩ (.plain "B"))
            (.scalar ⟨20, 21⟩ (.plain "C")))] :=
      (Statement.parse_eq _ _).trans rfl
    obtain ⟨heads, others⟩ := (columns_point_at_tokens none tokens).1 _ accepted
    exact ⟨tokens, _, rfl, accepted, rfl, rfl, heads, others⟩
  · have refused : Statement.parse none [.word .PRINT, .blank 1, .rightParen] =
        .error ⟨.syntaxError, "EXPECTED EXPRESSION", none, ⟨6, 7⟩⟩ :=
      (Statement.parse_eq _ _).trans rfl
    exact ⟨_, refused, rfl, (columns_point_at_tokens none _).2.2 _ (.inl refused)⟩

end NumberedBasic
