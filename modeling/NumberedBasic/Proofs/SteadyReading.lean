import NumberedBasic.Proofs.ExpressionReading

/-!
# What readers take no notice of

Two facts hold of everything a reader accepts. No two relations are adjacent in it (`Spaced`), since
an operand follows each of them. And the result does not depend on how the line ends: on the columns
of its end, nor on an empty remark or an empty data item in front of it (`Alike`). `Steady` says
both of a reader, together with the fact that it only goes forward. The rules for it follow the ways
in which readers are put together. Here they are applied to the readers of expressions.
-/

set_option autoImplicit false

namespace NumberedBasic

open Lexeme (refuse expect functionName)

/-- A relation between two operands. -/
def Token.isRelation : Token → Bool
  | .operator (.binary op) =>
    match op with
    | .equal | .notEqual | .less | .lessEqual | .greater | .greaterEqual => true
    | _ => false
  | _ => false

namespace Lexeme

/-- A relation is next. -/
def atRelation : List Lexeme → Bool
  | t :: _ => t.token.isRelation
  | [] => false

/-- As far as the end of the line, no relation follows another. -/
def Spaced : List Lexeme → Prop
  | [] => True
  | t :: ts => t.token = .endOfLine ∨ (t.token.isRelation && atRelation ts) = false ∧ Spaced ts

/-- Two lines that differ at most in how they end. -/
inductive Alike : List Lexeme → List Lexeme → Prop
  | cons {t : Lexeme} {ts us : List Lexeme} (tail : Alike ts us) : Alike (t :: ts) (t :: us)
  | close {c d : Span} : Alike [⟨.endOfLine, c⟩] [⟨.endOfLine, d⟩]
  | datum {b c d : Span} : Alike [⟨.datum "", b⟩, ⟨.endOfLine, c⟩] [⟨.endOfLine, d⟩]
  | remark {b c d : Span} : Alike [⟨.remark "", b⟩, ⟨.endOfLine, c⟩] [⟨.endOfLine, d⟩]

/-- A token that lines cannot differ in. -/
def fixes : Token → Bool
  | .datum _ | .remark _ | .endOfLine => false
  | _ => true

variable {t : Lexeme} {ts us : List Lexeme}

/-- Whether a statement ends is decided by the first lexeme. -/
theorem atEnd_cons (t : Lexeme) (ts us : List Lexeme) : atEnd (t :: ts) = atEnd (t :: us) := by
  obtain ⟨t, column⟩ := t
  cases t with
  | word w => cases w <;> rfl
  | _ => rfl

/-- Lines that are alike share a first lexeme that lines cannot differ in. -/
theorem Alike.of_fixes (alike : Alike (t :: ts) us) (fixed : fixes t.token = true) :
    ∃ vs, us = t :: vs ∧ Alike ts vs := by
  cases alike with
  | cons tail => exact ⟨_, rfl, tail⟩
  | close | datum | remark => cases fixed

/-- A first lexeme that lines cannot differ in stands in every line that is alike. -/
theorem Alike.fixes_back (alike : Alike ts (t :: us)) (fixed : fixes t.token = true) :
    ∃ vs, ts = t :: vs := by
  cases alike with
  | cons tail => exact ⟨_, rfl⟩
  | close | datum | remark => cases fixed

/-- Lexemes that are spaced stay so with one in front that is no relation. -/
theorem spaced_cons (plain : t.token.isRelation = false) (spaced : Spaced ts) : Spaced (t :: ts) :=
  .inr ⟨by rw [plain]; rfl, spaced⟩

/-- Lexemes that are spaced and start with no relation stay so with anything in front. -/
theorem spaced_cons_of_not (plain : atRelation ts = false) (spaced : Spaced ts) :
    Spaced (t :: ts) :=
  .inr ⟨by rw [plain, Bool.and_false], spaced⟩

end Lexeme

open Lexeme (Alike Spaced atRelation fixes)

/-! ## Readers -/

/-- On lists of at most `n` lexemes, a reader only goes forward, takes nothing in which relations
are adjacent, and reads alike what is alike. -/
def SteadyTo {α : Type} (n : Nat) (p : List Lexeme → Except Refusal (WithRest α)) : Prop :=
  ∀ (ts : List Lexeme) (a : α) (rest : List Lexeme), ts.length ≤ n → p ts = .ok (a, rest) →
    rest.length ≤ ts.length ∧ (Spaced rest → Spaced ts) ∧
      ∀ us, Alike ts us → ∃ vs, p us = .ok (a, vs) ∧ Alike rest vs

/-- The same on lists of any length. -/
def Steady {α : Type} (p : List Lexeme → Except Refusal (WithRest α)) : Prop :=
  ∀ n, SteadyTo n p

namespace SteadyTo

variable {α β : Type} {n : Nat} {p : List Lexeme → Except Refusal (WithRest α)}
  {q : WithRest α → Except Refusal (WithRest β)}

/-- Reading nothing is steady. -/
theorem pure (a : α) : SteadyTo n fun ts => Pure.pure (a, ts) := by
  rintro ts _ _ - ⟨⟩
  exact ⟨Nat.le_refl _, id, fun _ alike => ⟨_, rfl, alike⟩⟩

/-- A reader that accepts nothing is steady. -/
theorem of_error (h : ∀ ts, ∃ e, p ts = .error e) : SteadyTo n p := by
  intro ts a rest _ done
  obtain ⟨e, failed⟩ := h ts
  rw [failed] at done
  cases done

/-- Readers that are steady are so one after the other. -/
theorem bind (first : SteadyTo n p) (second : ∀ a, SteadyTo n fun rest => q (a, rest)) :
    SteadyTo n fun ts => p ts >>= q := by
  intro ts b rest short done
  obtain ⟨⟨a, next⟩, read, done⟩ := exists_of_bind_eq_ok done
  obtain ⟨shorter, spaced, alike⟩ := first ts a next short read
  obtain ⟨shorter', spaced', alike'⟩ := second a next b rest (Nat.le_trans shorter short) done
  refine ⟨Nat.le_trans shorter' shorter, fun h => spaced (spaced' h), fun us h => ?_⟩
  obtain ⟨vs, same, tail⟩ := alike us h
  obtain ⟨ws, same', tail'⟩ := alike' vs tail
  refine ⟨ws, ?_, tail'⟩
  show p us >>= q = _
  rw [bind_of_eq_ok same]
  exact same'

/-- A reader that goes on after a function has taken something off the front. -/
theorem bind_ok {f : List Lexeme → WithRest α} {p : α → List Lexeme → Except Refusal (WithRest β)}
    (first : SteadyTo n fun ts => .ok (f ts)) (second : ∀ a, SteadyTo n (p a)) :
    SteadyTo n fun ts => p (f ts).1 (f ts).2 :=
  bind (q := fun r => p r.1 r.2) first second

/-- A reader that makes something of what another one reads. -/
theorem map (first : SteadyTo n p) (f : α → β) :
    SteadyTo n fun ts => p ts >>= fun r => Pure.pure (f r.1, r.2) :=
  bind first fun a => pure (f a)

/-- A choice between steady readers is steady. -/
theorem ite {c : Prop} [Decidable c] {p p' : List Lexeme → Except Refusal (WithRest α)}
    (yes : SteadyTo n p) (no : SteadyTo n p') : SteadyTo n fun ts => if c then p ts else p' ts := by
  by_cases h : c
  · simp only [if_pos h]
    exact yes
  · simp only [if_neg h]
    exact no

/-- The first token, if there is one, is none of those that `P` picks. -/
def Misses (P : Token → Bool) (ts : List Lexeme) : Prop :=
  ∀ t rest, ts = t :: rest → P t.token = false

/-- Tokens that a reader may go by: lines do not differ in them, and they are no relations. -/
def Plain (P : Token → Bool) : Prop :=
  ∀ t, P t = true → fixes t = true ∧ t.isRelation = false

/-- If a line starts with none of some plain tokens, neither does one that is alike. -/
theorem Misses.of_alike {P : Token → Bool} (plain : Plain P) {ts us : List Lexeme}
    (missed : Misses P ts) (alike : Alike ts us) : Misses P us := by
  rintro t tail rfl
  cases found : P t.token with
  | false => rfl
  | true =>
    obtain ⟨vs, rfl⟩ := alike.fixes_back (plain _ found).1
    exact found.symm.trans (missed t vs rfl)

/-- Unless the tokens are missed, one of them stands first. -/
theorem exists_of_not_misses {P : Token → Bool} {ts : List Lexeme} (h : ¬Misses P ts) :
    ∃ t tail, ts = t :: tail ∧ P t.token = true := by
  simpa [Misses] using h

/-- A reader that chooses by the first token, and leaves it to the reader it chooses. -/
theorem choose {f g : List Lexeme → Except Refusal (WithRest α)} (P : Token → Bool)
    (plain : Plain P) (hit : ∀ t ts, P t.token = true → f (t :: ts) = g (t :: ts))
    (miss : ∀ ts, Misses P ts → f ts = p ts) (taken : SteadyTo n g) (other : SteadyTo n p) :
    SteadyTo n f := by
  intro ts a rest short done
  by_cases missed : Misses P ts
  · rw [miss ts missed] at done
    obtain ⟨shorter, spaced, alike⟩ := other ts a rest short done
    refine ⟨shorter, spaced, fun us h => ?_⟩
    rw [miss us (missed.of_alike plain h)]
    exact alike us h
  · obtain ⟨t, tail, rfl, found⟩ := exists_of_not_misses missed
    rw [hit t tail found] at done
    obtain ⟨shorter, spaced, alike⟩ := taken (t :: tail) a rest short done
    refine ⟨shorter, spaced, fun us h => ?_⟩
    obtain ⟨vs, rfl, -⟩ := h.of_fixes (plain _ found).1
    rw [hit t vs found]
    exact alike _ h

/-- A reader that takes only certain tokens. -/
theorem take {f : List Lexeme → Except Refusal (WithRest α)} (P : Token → Bool) (plain : Plain P)
    (hit : ∀ t : Lexeme, P t.token = true → ∀ m < n, SteadyTo m fun ts => f (t :: ts))
    (miss : ∀ ts, Misses P ts → ∃ e, f ts = .error e) : SteadyTo n f := by
  intro ts a rest short done
  by_cases missed : Misses P ts
  · obtain ⟨e, failed⟩ := miss ts missed
    rw [failed] at done
    cases done
  · obtain ⟨t, tail, rfl, found⟩ := exists_of_not_misses missed
    obtain ⟨shorter, spaced, alike⟩ :=
      hit t found tail.length short tail a rest (Nat.le_refl _) done
    refine ⟨Nat.le_succ_of_le shorter,
      fun h => Lexeme.spaced_cons (plain _ found).2 (spaced h), fun us h => ?_⟩
    obtain ⟨vs, rfl, tails⟩ := h.of_fixes (plain _ found).1
    exact alike vs tails

/-- A reader that goes by the first token. -/
theorem head {f : List Lexeme → Except Refusal (WithRest α)} (P : Token → Bool) (plain : Plain P)
    (hit : ∀ t : Lexeme, P t.token = true → ∀ m < n, SteadyTo m fun ts => f (t :: ts))
    (miss : ∀ ts, Misses P ts → f ts = p ts) (other : SteadyTo n p) : SteadyTo n f := by
  classical
  let g (ts : List Lexeme) := if Misses P ts then refuse ts "" else f ts
  have same (t : Lexeme) (ts : List Lexeme) (found : P t.token = true) :
      g (t :: ts) = f (t :: ts) :=
    if_neg fun missed => Bool.false_ne_true ((missed t ts rfl).symm.trans found)
  refine choose P plain (fun t ts found => (same t ts found).symm) miss (take P plain ?_ ?_) other
  · intro t found m less
    simp only [same t _ found]
    exact hit t found m less
  · intro ts missed
    exact ⟨_, if_pos missed⟩

/-- A reader that chooses by whether a statement may end. If not, it must go by the first token. -/
theorem atEnd {p' : List Lexeme → Except Refusal (WithRest α)} (yes : SteadyTo n p)
    (no : SteadyTo n p')
    (refuses : ∀ t rest, fixes t.token = false → ∃ e, p' (t :: rest) = .error e) :
    SteadyTo n fun ts => if Lexeme.atEnd ts = true then p ts else p' ts := by
  intro ts a rest short done
  by_cases ends : Lexeme.atEnd ts = true
  · obtain ⟨shorter, spaced, alike⟩ := yes ts a rest short ((if_pos ends).symm.trans done)
    refine ⟨shorter, spaced, fun us h => ?_⟩
    have ends' : Lexeme.atEnd us = true := by
      cases h with
      | cons => exact Lexeme.atEnd_cons .. ▸ ends
      | close => rfl
      | datum | remark => cases ends
    obtain ⟨vs, read, left⟩ := alike us h
    exact ⟨vs, (if_pos ends').trans read, left⟩
  · have done : p' ts = .ok (a, rest) := (if_neg ends).symm.trans done
    obtain ⟨shorter, spaced, alike⟩ := no ts a rest short done
    refine ⟨shorter, spaced, fun us h => ?_⟩
    have ends' : ¬Lexeme.atEnd us = true := by
      cases h with
      | cons => exact Lexeme.atEnd_cons .. ▸ ends
      | close => exact absurd rfl ends
      | @datum b c =>
        obtain ⟨e, failed⟩ := refuses ⟨.datum "", b⟩ [⟨.endOfLine, c⟩] rfl
        rw [failed] at done
        cases done
      | @remark b c =>
        obtain ⟨e, failed⟩ := refuses ⟨.remark "", b⟩ [⟨.endOfLine, c⟩] rfl
        rw [failed] at done
        cases done
    obtain ⟨vs, read, left⟩ := alike us h
    exact ⟨vs, (if_neg ends').trans read, left⟩

/-- A list of tokens is plain if each of them is. -/
theorem plain_contains {tokens : List Token}
    (h : (tokens.all fun t => fixes t && !t.isRelation) = true) : Plain tokens.contains := by
  intro t found
  have inside : t ∈ tokens := List.contains_iff_mem.mp found
  simpa using List.all_eq_true.mp h t inside

/-- A token that is expected and found stands first. -/
theorem exists_of_expect {token : Token} {detail : String} {ts rest : List Lexeme}
    (h : Lexeme.expect token detail ts = .ok rest) : ∃ t, ts = t :: rest ∧ t.token = token := by
  unfold Lexeme.expect at h
  split at h
  next t tail =>
    split at h
    next same =>
      cases h
      exact ⟨t, rfl, same⟩
    next => cases h
  next => cases h

/-- A token is taken before a reader that goes on. If it is a relation, the reader must accept none
at the front. -/
theorem expect {token : Token} {detail : String} (fixed : fixes token = true) (next : SteadyTo n p)
    (starts : token.isRelation = true → ∀ ts a rest, p ts = .ok (a, rest) → atRelation ts = false) :
    SteadyTo n fun ts => Lexeme.expect token detail ts >>= p := by
  intro ts a rest short done
  obtain ⟨after, expected, read⟩ := exists_of_bind_eq_ok done
  obtain ⟨t, rfl, same⟩ := exists_of_expect expected
  obtain ⟨shorter, spaced, alike⟩ := next after a rest (Nat.le_of_succ_le short) read
  refine ⟨Nat.le_succ_of_le shorter, fun h => ?_, fun us h => ?_⟩
  · cases relation : token.isRelation with
    | false => exact Lexeme.spaced_cons (same ▸ relation) (spaced h)
    | true => exact Lexeme.spaced_cons_of_not (starts relation after a rest read) (spaced h)
  · obtain ⟨vs, rfl, tails⟩ := h.of_fixes (same ▸ fixed)
    obtain ⟨ws, read', left⟩ := alike vs tails
    have taken : Lexeme.expect token detail (t :: vs) = .ok vs := if_pos same
    refine ⟨ws, ?_, left⟩
    show Lexeme.expect token detail (t :: vs) >>= p = _
    rw [bind_of_eq_ok taken]
    exact read'

end SteadyTo

open SteadyTo (Misses Plain plain_contains)

/-- What a steady reader yields on a line it yields on every line that is alike. -/
theorem Steady.apply {α : Type} {p : List Lexeme → Except Refusal (WithRest α)} (steady : Steady p)
    {ts : List Lexeme} {a : α} {rest : List Lexeme} (done : p ts = .ok (a, rest)) :
    rest.length ≤ ts.length ∧ (Spaced rest → Spaced ts) ∧
      ∀ us, Alike ts us → ∃ vs, p us = .ok (a, vs) ∧ Alike rest vs :=
  steady ts.length ts a rest (Nat.le_refl _) done

/-- The token is a name. -/
def Token.isName : Token → Bool
  | .name _ => true
  | _ => false

/-- The token is a number. -/
def Token.isNumber : Token → Bool
  | .number _ => true
  | _ => false

/-- The token is a string. -/
def Token.isString : Token → Bool
  | .string _ => true
  | _ => false

/-- A reader may go by strings. -/
theorem plain_isString : Plain Token.isString := by
  intro t found
  cases t with
  | string => exact ⟨rfl, rfl⟩
  | _ => cases found

/-- A reader may go by names. -/
theorem plain_isName : Plain Token.isName := by
  intro t found
  cases t with
  | name => exact ⟨rfl, rfl⟩
  | _ => cases found

/-- A reader may go by numbers. -/
theorem plain_isNumber : Plain Token.isNumber := by
  intro t found
  cases t with
  | number => exact ⟨rfl, rfl⟩
  | _ => cases found

namespace Lexeme

/-- The name after `FN` is read steadily. -/
theorem steady_functionName : Steady fun ts => .ok (functionName ts) := by
  intro n
  refine .head (p := fun ts => pure (.ofName "FN", ts)) Token.isName plain_isName ?_ ?_ (.pure _)
  · rintro ⟨t, column⟩ found m _
    cases t with
    | name i => exact .pure (Ident.ofName ("FN" ++ i.name))
    | _ => cases found
  · intro ts missed
    unfold functionName
    split
    next => cases missed _ _ rfl
    next => rfl

/-- A line number is read from the first lexeme alone. -/
theorem exists_of_lineNumber {ts rest : List Lexeme} {line : LineNumber}
    (h : lineNumber ts = .ok (line, rest)) : ∃ t, ts = t :: rest := by
  unfold lineNumber at h
  split at h
  next => cases h
  next t tail =>
    split at h
    · cases h
      exact ⟨t, rfl⟩
    · cases h

/-- A line number that is a number token is read steadily. -/
theorem steady_lineNumber_number (s : String) (column : Span) :
    Steady fun ts => lineNumber (⟨.number s, column⟩ :: ts) := by
  intro n
  unfold lineNumber
  dsimp only
  split
  · exact .pure _
  · exact .of_error fun _ => ⟨_, rfl⟩

/-- Line numbers are read steadily. -/
theorem steady_lineNumber : Steady lineNumber := by
  intro n
  refine .take Token.isNumber plain_isNumber ?_ ?_
  · rintro ⟨t, column⟩ found m _
    cases t with
    | number s => exact steady_lineNumber_number s column m
    | _ => cases found
  · intro ts missed
    unfold lineNumber
    split
    next => exact ⟨_, rfl⟩
    next t rest =>
      obtain ⟨t, column⟩ := t
      cases t with
      | number => cases missed _ _ rfl
      | _ => exact ⟨_, rfl⟩

end Lexeme

/-! ## Expressions -/

namespace Expr

/-- How tightly operators bind next is the same in lines that are alike. -/
theorem Loose.of_alike {level : Nat} {ts us : List Lexeme} (loose : Loose level ts)
    (alike : Alike ts us) : Loose level us := by
  rintro op column rest rfl
  obtain ⟨vs, rfl⟩ := alike.fixes_back rfl
  exact loose op column vs rfl

/-- Whether a parenthesis opens next is the same in lines that are alike. -/
theorem Unopened.of_alike {ts us : List Lexeme} (unopened : Unopened ts) (alike : Alike ts us) :
    Unopened us := by
  rintro column rest rfl
  obtain ⟨vs, rfl⟩ := alike.fixes_back rfl
  exact unopened column vs rfl

/-- The name after `FN` holds no relations. -/
theorem spaced_of_functionName {i : Ident} {ts rest : List Lexeme}
    (named : functionName ts = (i, rest)) (spaced : Spaced rest) : Spaced ts :=
  (Lexeme.steady_functionName.apply (congrArg Except.ok named)).2.1 spaced

/-- The name after `FN` is the same in lines that are alike. -/
theorem alike_of_functionName {i : Ident} {ts rest us : List Lexeme}
    (named : functionName ts = (i, rest)) (alike : Alike ts us) :
    ∃ vs, functionName us = (i, vs) ∧ Alike rest vs := by
  obtain ⟨vs, named', left⟩ :=
    (Lexeme.steady_functionName.apply (congrArg Except.ok named)).2.2 us alike
  exact ⟨vs, Except.ok.inj named', left⟩

mutual

/-- In an expression no relation follows another, and it does not start with one. -/
theorem Reads.spaced {level : Nat} {ts rest : List Lexeme} {e : Expr} :
    Reads level ts e rest → Spaced rest → Spaced ts ∧ atRelation ts = false
  | .intro first more, spaced => first.spaced (more.spaced spaced)

/-- In an operand no relation follows another, and it does not start with one. -/
theorem ReadsOperand.spaced {ts rest : List Lexeme} {e : Expr} :
    ReadsOperand ts e rest → Spaced rest → Spaced ts ∧ atRelation ts = false
  | .group inner, spaced =>
    ⟨Lexeme.spaced_cons rfl (inner.spaced (Lexeme.spaced_cons rfl spaced)).1, rfl⟩
  | .call arguments, spaced =>
    ⟨Lexeme.spaced_cons rfl (Lexeme.spaced_cons rfl (arguments.spaced spaced)), rfl⟩
  | .scalar _, spaced | .number _, spaced | .string, spaced => ⟨Lexeme.spaced_cons rfl spaced, rfl⟩
  | .userCall named arguments, spaced => by
    have front := spaced_of_functionName named (Lexeme.spaced_cons rfl (arguments.spaced spaced))
    exact ⟨Lexeme.spaced_cons rfl front, rfl⟩
  | .user named _, spaced => ⟨Lexeme.spaced_cons rfl (spaced_of_functionName named spaced), rfl⟩
  | .negate inner, spaced | .plus inner, spaced | .not inner, spaced =>
    ⟨Lexeme.spaced_cons rfl (inner.spaced spaced).1, rfl⟩

/-- Among the operators after an operand no relation follows another, because an operand stands
between them. -/
theorem Extends.spaced {level : Nat} {ts rest : List Lexeme} {left e : Expr} :
    Extends level left ts e rest → Spaced rest → Spaced ts
  | .stop _, spaced => spaced
  | .binary _ operand more, spaced => by
    have inside := operand.spaced (more.spaced spaced)
    exact Lexeme.spaced_cons_of_not inside.2 inside.1

/-- In arguments no relation follows another. -/
theorem ReadsArguments.spaced {ts rest : List Lexeme} {es : List Expr} :
    ReadsArguments ts es rest → Spaced rest → Spaced ts
  | .last only, spaced => (only.spaced (Lexeme.spaced_cons rfl spaced)).1
  | .more first others, spaced =>
    (first.spaced (Lexeme.spaced_cons rfl (others.spaced spaced))).1

end

mutual

/-- An expression is spelled by every line that is alike. -/
theorem Reads.alike {level : Nat} {ts rest us : List Lexeme} {e : Expr} :
    Reads level ts e rest → Alike ts us → ∃ vs, Reads level us e vs ∧ Alike rest vs
  | .intro first more, alike => by
    obtain ⟨vs, first', alike'⟩ := first.alike alike
    obtain ⟨ws, more', left⟩ := more.alike alike'
    exact ⟨ws, .intro first' more', left⟩

/-- An operand is spelled by every line that is alike. -/
theorem ReadsOperand.alike {ts rest us : List Lexeme} {e : Expr} :
    ReadsOperand ts e rest → Alike ts us → ∃ vs, ReadsOperand us e vs ∧ Alike rest vs
  | .group inner, alike => by
    obtain ⟨vs, rfl, tails⟩ := alike.of_fixes rfl
    obtain ⟨ws, inner', closing⟩ := inner.alike tails
    obtain ⟨xs, rfl, left⟩ := closing.of_fixes rfl
    exact ⟨xs, .group inner', left⟩
  | .call arguments, alike => by
    obtain ⟨vs, rfl, tails⟩ := alike.of_fixes rfl
    obtain ⟨ws, rfl, inside⟩ := tails.of_fixes rfl
    obtain ⟨xs, arguments', left⟩ := arguments.alike inside
    exact ⟨xs, .call arguments', left⟩
  | .scalar unopened, alike => by
    obtain ⟨vs, rfl, tails⟩ := alike.of_fixes rfl
    exact ⟨vs, .scalar (unopened.of_alike tails), tails⟩
  | .userCall named arguments, alike => by
    obtain ⟨vs, rfl, tails⟩ := alike.of_fixes rfl
    obtain ⟨ws, named', opening⟩ := alike_of_functionName named tails
    obtain ⟨xs, rfl, inside⟩ := opening.of_fixes rfl
    obtain ⟨ys, arguments', left⟩ := arguments.alike inside
    exact ⟨ys, .userCall named' arguments', left⟩
  | .user named unopened, alike => by
    obtain ⟨vs, rfl, tails⟩ := alike.of_fixes rfl
    obtain ⟨ws, named', left⟩ := alike_of_functionName named tails
    exact ⟨ws, .user named' (unopened.of_alike left), left⟩
  | .number value, alike => by
    obtain ⟨vs, rfl, tails⟩ := alike.of_fixes rfl
    exact ⟨vs, .number value, tails⟩
  | .string, alike => by
    obtain ⟨vs, rfl, tails⟩ := alike.of_fixes rfl
    exact ⟨vs, .string, tails⟩
  | .negate inner, alike => by
    obtain ⟨vs, rfl, tails⟩ := alike.of_fixes rfl
    obtain ⟨ws, inner', left⟩ := inner.alike tails
    exact ⟨ws, .negate inner', left⟩
  | .plus inner, alike => by
    obtain ⟨vs, rfl, tails⟩ := alike.of_fixes rfl
    obtain ⟨ws, inner', left⟩ := inner.alike tails
    exact ⟨ws, .plus inner', left⟩
  | .not inner, alike => by
    obtain ⟨vs, rfl, tails⟩ := alike.of_fixes rfl
    obtain ⟨ws, inner', left⟩ := inner.alike tails
    exact ⟨ws, .not inner', left⟩

/-- The operators after an operand are spelled by every line that is alike. -/
theorem Extends.alike {level : Nat} {ts rest us : List Lexeme} {left e : Expr} :
    Extends level left ts e rest → Alike ts us → ∃ vs, Extends level left us e vs ∧ Alike rest vs
  | .stop loose, alike => ⟨us, .stop (loose.of_alike alike), alike⟩
  | .binary tight operand more, alike => by
    obtain ⟨vs, rfl, tails⟩ := alike.of_fixes rfl
    obtain ⟨ws, operand', after⟩ := operand.alike tails
    obtain ⟨xs, more', left⟩ := more.alike after
    exact ⟨xs, .binary tight operand' more', left⟩

/-- Arguments are spelled by every line that is alike. -/
theorem ReadsArguments.alike {ts rest us : List Lexeme} {es : List Expr} :
    ReadsArguments ts es rest → Alike ts us → ∃ vs, ReadsArguments us es vs ∧ Alike rest vs
  | .last only, alike => by
    obtain ⟨vs, only', closing⟩ := only.alike alike
    obtain ⟨ws, rfl, left⟩ := closing.of_fixes rfl
    exact ⟨ws, .last only', left⟩
  | .more first others, alike => by
    obtain ⟨vs, first', comma⟩ := first.alike alike
    obtain ⟨ws, rfl, after⟩ := comma.of_fixes rfl
    obtain ⟨xs, others', left⟩ := others.alike after
    exact ⟨xs, .more first' others', left⟩

end

/-- An operand does not start with a relation. -/
theorem ReadsOperand.atRelation_eq {ts rest : List Lexeme} {e : Expr} (h : ReadsOperand ts e rest) :
    atRelation ts = false := by
  cases h <;> rfl

/-- An expression does not start with a relation. -/
theorem Reads.atRelation_eq {level : Nat} {ts rest : List Lexeme} {e : Expr}
    (h : Reads level ts e rest) : atRelation ts = false := by
  cases h with
  | intro first _ => exact first.atRelation_eq

/-- No expression starts with a token that lines can differ in. -/
theorem exists_error_of_unfixed {t : Lexeme} (rest : List Lexeme)
    (unfixed : fixes t.token = false) :
    ∃ e, read (t :: rest) = .error e := by
  cases done : read (t :: rest) with
  | error e => exact ⟨e, rfl⟩
  | ok r =>
    obtain ⟨first, -⟩ := read_eq_ok_iff.mp done
    cases first <;> cases unfixed

/-- Expressions are read steadily. -/
theorem steady_read : Steady read := by
  intro n ts e rest _ done
  have reads := read_eq_ok_iff.mp done
  refine ⟨Nat.le_of_lt reads.length_lt, fun spaced => (reads.spaced spaced).1, fun us alike => ?_⟩
  obtain ⟨vs, reads', left⟩ := reads.alike alike
  exact ⟨vs, read_eq_ok_iff.mpr reads', left⟩

/-- Arguments are read steadily. -/
theorem steady_readArguments : Steady readArguments := by
  intro n ts es rest _ done
  have reads := readArguments_eq_ok_iff.mp done
  refine ⟨Nat.le_of_lt reads.length_lt, reads.spaced, fun us alike => ?_⟩
  obtain ⟨vs, reads', left⟩ := reads.alike alike
  exact ⟨vs, readArguments_eq_ok_iff.mpr reads', left⟩

end Expr

end NumberedBasic
