import NumberedBasic.Proofs.CursorReading
import NumberedBasic.Proofs.PairedStatements

/-!
# Layout and spelling

Blanks may stand anywhere between the tokens of a line, and four keywords have two spellings. Lines
that differ in nothing else have the same `Token.essentials`. They are read alike: what is read of
them side by side matches up to the end of the line (`Statement.pairs_readTo`), and so both are
accepted, with the same statements up to columns, or both are refused for the same reason.
-/

set_option autoImplicit false

namespace NumberedBasic

open Lexeme (SameTokens refuse)

/-! ## Whole lines side by side -/

namespace Statement

variable {source ts us : List Lexeme} {n : Nat}

/-- Filling in a target and leaving out columns can be done in either order. -/
theorem bare_withTarget (target : Nat) (s : Statement) :
    (s.withTarget target).bare = s.bare.withTarget target := by
  cases s <;> rfl

/-- Filling in a target does not change where a statement stands. -/
theorem mark_withTarget (target : Nat) (s : Statement) : (s.withTarget target).mark = s.mark := by
  cases s <;> rfl

/-- Filling in a target does not change where the parts of a statement stand. -/
theorem marks_withTarget (target : Nat) (s : Statement) :
    (s.withTarget target).marks = s.marks := by
  cases s <;> rfl

/-- A change of one statement is seen at the same place in what is read off the statements. -/
theorem map_modify {α : Type} {f : Statement → α} {g : Statement → Statement} {h : α → α}
    (commutes : ∀ s, f (g s) = h (f s)) (code : List Statement) (i : Nat) :
    (code.modify i g).map f = (code.map f).modify i h := by
  induction code generalizing i with
  | nil => cases i <;> rfl
  | cons s code ih =>
    cases i with
    | zero => simp [commutes]
    | succ i => simp [ih]

/-- Filling in a target changes no column. -/
theorem Matched.setTarget {k : Nat} {code code' : Array Statement} (index target : Nat)
    (matched : Matched source n code.toList code'.toList k) :
    Matched source n (setTarget code index target).toList
      (setTarget code' index target).toList k := by
  have same {α : Type} {f : Statement → α} (keeps : ∀ s, f (withTarget target s) = f s) :
      (code.toList.modify index (withTarget target)).map f = code.toList.map f := by
    rw [map_modify (h := id) keeps, List.modify_id]
  rw [Statement.setTarget, Statement.setTarget, Array.toList_modify, Array.toList_modify]
  refine ⟨?_, ?_, ?_⟩
  · rw [map_modify (bare_withTarget target), map_modify (bare_withTarget target), matched.bare]
  · rw [same (mark_withTarget target)]
    exact matched.heads
  · rw [List.flatMap_def, same (marks_withTarget target), ← List.flatMap_def]
    exact matched.marks

/-- Statements that match still do with a further pair after them that matches. -/
theorem Matched.push {k : Nat} {code code' : Array Statement} {a b : Statement}
    (matched : Matched source 0 code.toList code'.toList n) (last : Matched source n [a] [b] k) :
    Matched source 0 (code.push a).toList (code'.push b).toList k := by
  rw [Array.toList_push, Array.toList_push]
  exact matched.append last

/-- Statements that match are equally many. -/
theorem Matched.size_eq {k : Nat} {code code' : Array Statement}
    (matched : Matched source n code.toList code'.toList k) : code.size = code'.size := by
  simpa using congrArg List.length matched.bare

/-- Behind a lexeme, it is what stands in front. -/
theorem before_succ {t : Token} {c : Span} (here : source.drop n = ⟨t, c⟩ :: ts) :
    Mark.before source (n + 1) = some t := by
  rw [Mark.before, getElem?_of_drop here, Option.map_some]

/-- A statement may start at `n`: no `LET` stands before it, or it ends there. -/
def Ready (source : List Lexeme) (n : Nat) : Prop :=
  Mark.before source n ≠ some (.word .LET) ∨ Lexeme.atEnd (source.drop n) = true

/-- Behind any lexeme but a `LET`, a statement may start. -/
theorem ready_succ {t : Token} {c : Span} (here : source.drop n = ⟨t, c⟩ :: ts)
    (other : t ≠ .word .LET) : Ready source (n + 1) := by
  refine .inl fun before => other ?_
  rw [before_succ here] at before
  exact Option.some.inj before

/-- Statements that match were read up to `k`, where a statement ends. -/
def ReadUpTo (source : List Lexeme) (code code' : Array Statement) (k : Nat) : Prop :=
  Matched source 0 code.toList code'.toList k ∧ Lexeme.atEnd (source.drop k) = true

/-- A reader of branches for which readings agree: it goes on from statements that match to
statements that match, and stops at the end of a statement. -/
def Pairs (source : List Lexeme) (extend : Extender) : Prop :=
  ∀ {n : Nat} {ts us : List Lexeme} {code code' : Array Statement}, source.drop n = ts →
    SameTokens ts us → Ready source n → Matched source 0 code.toList code'.toList n →
    Agree source (ReadUpTo source) (extend ts code) (extend us code')

namespace Pairs

variable {extend : Extender} {code code' : Array Statement}

/-- Branches are read alike, behind a `THEN` and behind an `ELSE`. -/
theorem readBranch (pairs : Pairs source extend) (here : source.drop n = ts)
    (same : SameTokens ts us)
    (after : Mark.before source n = some (.word .THEN) ∨ Mark.before source n = some (.word .ELSE))
    (matched : Matched source 0 code.toList code'.toList n) :
    Agree source (ReadUpTo source) (readBranch extend ts code) (readBranch extend us code') := by
  have ready : Ready source n := by
    refine .inl fun before => ?_
    rw [before] at after
    rcases after with h | h <;> cases h
  cases same with
  | nil => exact pairs here .nil ready matched
  | token t c d tails =>
    cases t with
    | number s =>
      refine .bind (Lexeme.agree_lineNumber here (.token _ c d tails)) ?_
      rintro number _ k rest rest' ⟨rfl, rfl, t, found, known⟩ there same
      have points : (Mark.jump c number).Points source n := by
        rw [getElem?_of_drop here] at found
        cases found
        exact ⟨_, getElem?_of_drop here, rfl, .inr ⟨after, ⟨s, rfl⟩, known⟩⟩
      refine pairs there same (ready_succ here nofun) (matched.push ?_)
      exact .single rfl points (.nil (Nat.le_succ n)) (Nat.lt_succ_self n)
    | _ => exact pairs here (.token _ c d tails) ready matched
  | word other c d tails => exact pairs here (.word other c d tails) ready matched

/-- A jump to a line number is read alike, however its word is spelled. -/
theorem jump (pairs : Pairs source extend) {v : Word} {c : Span} (d : Span)
    (here : source.drop n = ⟨.word v, c⟩ :: ts) (goto : v.usual = .GOTO) (same : SameTokens ts us)
    (matched : Matched source 0 code.toList code'.toList n) :
    Agree source (ReadUpTo source)
      (Lexeme.lineNumber ts >>= fun r => extend r.2 (code.push (.run (.goto c r.1))))
      (Lexeme.lineNumber us >>= fun r => extend r.2 (code'.push (.run (.goto d r.1)))) := by
  refine .bind (Lexeme.agree_lineNumber (drop_succ_of_drop here) same) ?_
  rintro number _ k rest rest' ⟨rfl, rfl, t, found, known⟩ there same
  have points : (Mark.jump c number).Points source n :=
    Mark.points_of_drop here fun _ => .inl (congrArg Token.word goto)
  -- The token before is the line number, and `LET` is none.
  have ready : Ready source (n + 2) := by
    refine .inl fun before => ?_
    rw [Mark.before, found, Option.map_some] at before
    rw [Option.some.inj before] at known
    cases known
  refine pairs there same ready (matched.push ?_)
  exact .single rfl points (.nil (by omega)) (by omega)

/-- The outcome of an `IF` is read alike. -/
theorem readOutcome (pairs : Pairs source extend) (here : source.drop n = ts)
    (same : SameTokens ts us) (matched : Matched source 0 code.toList code'.toList n) :
    Agree source (ReadUpTo source) (readOutcome extend ts code) (readOutcome extend us code') := by
  cases same with
  | nil => exact .refuse here _ _
  | token t c d tails =>
    cases t with
    | word w =>
      cases w with
      | THEN =>
        exact pairs.readBranch (drop_succ_of_drop here) tails (.inl (before_succ here))
          (matched.stop_le (Nat.le_succ n))
      | GOTO | GO_TO => exact pairs.jump d here rfl tails matched
      | _ => exact .refuse here _ _
    | _ => exact .refuse here _ _
  | word other c d tails =>
    cases other with
    | goto | goTo => exact pairs.jump d here rfl tails matched
    | _ => exact .refuse here _ _

/-- An `IF` is read alike. -/
theorem readIf (pairs : Pairs source extend) {c : Span} (d : Span)
    (here : source.drop n = ⟨.word .IF, c⟩ :: ts) (same : SameTokens ts us)
    (matched : Matched source 0 code.toList code'.toList n) :
    Agree source (ReadUpTo source) (readIf extend c ts code) (readIf extend d us code') := by
  unfold Statement.readIf
  rw [matched.size_eq]
  refine .bind (Expr.agree_read (drop_succ_of_drop here) same) ?_
  rintro predicate predicate' k rest rest' ⟨bares, marked⟩ there same
  have branch : Matched source n [branch c predicate 0] [branch d predicate' 0] k := by
    refine .single ?_ (Mark.points_of_drop here fun _ => rfl) (marked.start_le (Nat.le_succ n))
      marked.le
    rw [Statement.bare, Statement.bare, bares]
  refine .bind (pairs.readOutcome there same (matched.push branch)) ?_
  rintro taken taken' m rest rest' ⟨matched, ends⟩ there same
  dsimp only
  rw [matched.size_eq]
  cases same with
  | nil => exact .ok ⟨matched.setTarget _ _, ends⟩ there .nil
  | token t e f tails =>
    cases t with
    | word w =>
      cases w with
      | ELSE =>
        have skip : Matched source m [skip e 0] [skip f 0] (m + 1) :=
          .single rfl (Mark.points_of_drop there fun _ => rfl) (.nil (Nat.le_succ m))
            (Nat.lt_succ_self m)
        refine .bind (pairs.readBranch (drop_succ_of_drop there) tails (.inr (before_succ there))
          ((matched.push skip).setTarget _ _)) ?_
        rintro all all' k rest rest' ⟨matched, ends⟩ there same
        dsimp only
        rw [matched.size_eq]
        exact .ok ⟨matched.setTarget _ _, ends⟩ there same
      | _ => exact .ok ⟨matched.setTarget _ _, ends⟩ there (.token _ e f tails)
    | _ => exact .ok ⟨matched.setTarget _ _, ends⟩ there (.token _ e f tails)
  | word other e f tails =>
    cases other <;>
      exact .ok ⟨matched.setTarget _ _, ends⟩ there (.word (by constructor) e f tails)

/-- A statement that is not an `IF`, and the rest of the line. -/
theorem readStatement (pairs : Pairs source extend) (here : source.drop n = ts)
    (same : SameTokens ts us) (ready : Ready source n)
    (matched : Matched source 0 code.toList code'.toList n) (goesOn : Lexeme.atEnd ts = false) :
    Agree source (ReadUpTo source)
      (Command.readStatement ts >>= fun r =>
        if Lexeme.atEnd r.2 = true then extend r.2 (code ++ r.1.map Statement.run)
        else refuse r.2 "UNEXPECTED TOKEN")
      (Command.readStatement us >>= fun r =>
        if Lexeme.atEnd r.2 = true then extend r.2 (code' ++ r.1.map Statement.run)
        else refuse r.2 "UNEXPECTED TOKEN") := by
  have starts : Mark.before source n ≠ some (.word .LET) := by
    refine ready.resolve_right ?_
    rw [here, goesOn]
    nofun
  refine .bind (Command.agree_readStatement here same starts) ?_
  intro commands commands' k rest rest' read there same
  dsimp only
  rw [← same.atEnd_eq]
  by_cases ends : Lexeme.atEnd rest = true
  · rw [if_pos ends, if_pos ends]
    refine pairs there same (.inr (there ▸ ends)) ?_
    rw [Array.toList_appendList, Array.toList_appendList]
    exact matched.append read
  · rw [if_neg ends, if_neg ends]
    exact .refuse there _ _

end Pairs

/-- Lines are read alike at every depth. -/
theorem pairs_readTo (source : List Lexeme) (depth : Nat) : Pairs source (readTo depth) := by
  induction depth with
  | zero => exact fun here _ _ _ => .exhausted here _
  | succ depth ih =>
    intro n ts us code code' here same ready matched
    cases same with
    | nil => exact .ok ⟨matched, here ▸ rfl⟩ here .nil
    | token t c d tails =>
      have next := drop_succ_of_drop here
      have statement := ih.readStatement here (.token t c d tails) ready matched
      cases t with
      | endOfLine => exact .ok ⟨matched, here ▸ rfl⟩ here (.token _ c d tails)
      | colon => exact ih next tails (ready_succ here nofun) (matched.stop_le (Nat.le_succ n))
      | word w =>
        cases w with
        | ELSE => exact .ok ⟨matched, here ▸ rfl⟩ here (.token _ c d tails)
        | IF =>
          refine .bind (ih.readIf d here tails matched) ?_
          rintro taken taken' k rest rest' ⟨matched, ends⟩ there same
          exact ih there same (.inr ends) matched
        | _ => exact statement rfl
      | _ => exact statement rfl
    | word other c d tails =>
      have statement := ih.readStatement here (.word other c d tails) ready matched
      cases other <;> exact statement rfl

/-- Lines with the same tokens are read into statements that match, or both are refused, for the
same reason and the first one at a token or at its end. -/
theorem agree_readLine (same : SameTokens source us) :
    (∃ code code' k, readLine source = .ok code ∧ readLine us = .ok code' ∧
      Matched source 0 code.toList code'.toList k) ∨
    ∃ e f, readLine source = .error e ∧ readLine us = .error f ∧ e.raised.code = f.raised.code ∧
      e.raised.detail = f.raised.detail ∧ e.raised.Unlocated ∧
      ∃ k : Nat, e.column = source[k]?.map Lexeme.column := by
  have read : Agree source (ReadUpTo source) (readTo (source.length + 1) source #[])
      (readTo (source.length + 1) us #[]) :=
    pairs_readTo source _ List.drop_zero same (.inl nofun) (.nil (Nat.le_refl 0))
  unfold readLine
  rw [← same.length_eq]
  generalize readTo _ source _ = x, readTo _ us _ = y at read ⊢
  cases read with
  | ok good there same =>
    cases same with
    | nil => exact .inl ⟨_, _, _, rfl, rfl, good.1⟩
    | token t c d tails =>
      have place := congrArg (Option.map Lexeme.column) (getElem?_of_drop there).symm
      cases t with
      | endOfLine => exact .inl ⟨_, _, _, rfl, rfl, good.1⟩
      | _ => exact .inr ⟨_, _, rfl, rfl, rfl, rfl, ⟨rfl, rfl⟩, _, place⟩
    | word other =>
      have place := congrArg (Option.map Lexeme.column) (getElem?_of_drop there).symm
      cases other <;> exact .inr ⟨_, _, rfl, rfl, rfl, rfl, ⟨rfl, rfl⟩, _, place⟩
  | error reason unlocated k place =>
    exact .inr ⟨_, _, rfl, rfl, congrArg _ reason, congrArg _ reason, unlocated, k, place⟩

end Statement

/-! ## Lines with the same tokens -/

namespace Token

/-- What a line says: its tokens that are not blank, each in the first of its spellings. -/
def essentials (ts : List Token) : List Token :=
  (ts.filter isSolid).map usual

/-- Tokens with the same usual spelling are the same, or two spellings of one word. -/
theorem eq_or_respelled {t u : Token} (same : t.usual = u.usual) :
    t = u ∨ ∃ v w, t = word v ∧ u = word w ∧ v.Respelled w := by
  cases t with
  | word v =>
    cases u with
    | word w =>
      obtain rfl | other := Word.eq_or_respelled (Token.word.inj same)
      · exact .inl rfl
      · exact .inr ⟨v, w, rfl, rfl, other⟩
    | _ => cases same
  | _ =>
    cases u with
    | word w => cases same
    | _ => exact .inl same

end Token

namespace Lexeme

/-- Lexemes whose tokens have the same usual spellings have the same tokens. -/
theorem sameTokens_of_usual {ts us : List Lexeme}
    (same : (ts.map token).map Token.usual = (us.map token).map Token.usual) :
    SameTokens ts us := by
  induction ts generalizing us with
  | nil =>
    cases us with
    | nil => exact .nil
    | cons => cases same
  | cons t ts ih =>
    cases us with
    | nil => cases same
    | cons u us =>
      obtain ⟨t, c⟩ := t
      obtain ⟨u, d⟩ := u
      simp only [List.map_cons, List.cons.injEq] at same
      have rest := ih same.2
      obtain rfl | ⟨v, w, rfl, rfl, other⟩ := Token.eq_or_respelled same.1
      · exact .token t c d rest
      · exact .word other c d rest

/-- Lines with the same essentials have the same tokens, wherever they stand. -/
theorem sameTokens_place {ts us : List Token} (same : Token.essentials ts = Token.essentials us) :
    SameTokens (place 0 ts) (place 0 us) := by
  apply sameTokens_of_usual
  rw [map_token_place, map_token_place]
  exact same

end Lexeme

/-- Lines that differ only in their blanks and in the spelling of their keywords are both accepted,
with the same statements up to columns, or both refused, for the same reason. -/
theorem layout_leaves_parse (number : Option LineNumber) {ts us : List Token}
    (same : Token.essentials ts = Token.essentials us) :
    (∃ as bs, Statement.parse number ts = .ok as ∧ Statement.parse number us = .ok bs ∧
      as.map Statement.bare = bs.map Statement.bare) ∨
    ∃ e f, Statement.parse number ts = .error e ∧ Statement.parse number us = .error f ∧
      e.code = f.code ∧ e.line = f.line ∧ e.detail = f.detail := by
  simp only [Statement.parse_eq, Statement.readTokens]
  obtain ⟨code, code', k, read, read', matched⟩ | ⟨e, f, failed, failed', code, detail, -⟩ :=
    Statement.agree_readLine (Lexeme.sameTokens_place same)
  · rw [read, read']
    exact .inl ⟨_, _, rfl, rfl, matched.bare⟩
  · rw [failed, failed']
    exact .inr ⟨_, _, rfl, rfl, code, rfl, detail⟩

/-- `IF A  THEN GO TO 10 ELSE ?B` is accepted, because `IFATHENGOTO10ELSEPRINTB` is. -/
theorem layout_leaves_parse_spaced :
    ∃ as bs,
      Statement.parse none
        [.word .IF, .blank 1, .name (.plain "A"), .blank 2, .word .THEN, .blank 1, .word .GO_TO,
          .blank 1, .number "10", .blank 1, .word .ELSE, .blank 1, .word .QUESTION,
          .name (.plain "B")] = .ok as ∧
      Statement.parse none
        [.word .IF, .name (.plain "A"), .word .THEN, .word .GOTO, .number "10", .word .ELSE,
          .word .PRINT, .name (.plain "B")] = .ok bs ∧
      as.map Statement.bare = bs.map Statement.bare := by
  have same : Token.essentials
        [.word .IF, .blank 1, .name (.plain "A"), .blank 2, .word .THEN, .blank 1, .word .GO_TO,
          .blank 1, .number "10", .blank 1, .word .ELSE, .blank 1, .word .QUESTION,
          .name (.plain "B")] =
      Token.essentials
        [.word .IF, .name (.plain "A"), .word .THEN, .word .GOTO, .number "10", .word .ELSE,
          .word .PRINT, .name (.plain "B")] := rfl
  have accepted : Statement.parse none
      [.word .IF, .name (.plain "A"), .word .THEN, .word .GOTO, .number "10", .word .ELSE,
        .word .PRINT, .name (.plain "B")] =
      .ok [.branch ⟨0, 2⟩ (.scalar ⟨2, 3⟩ (.plain "A")) 3, .run (.goto ⟨7, 11⟩ 10),
        .skip ⟨13, 17⟩ 4, .run (.print ⟨17, 22⟩ [.value (.scalar ⟨22, 23⟩ (.plain "B"))])] :=
    (Statement.parse_eq _ _).trans rfl
  obtain both | ⟨e, f, -, refused, -⟩ := layout_leaves_parse none same
  · exact both
  · rw [accepted] at refused
    cases refused

end NumberedBasic
