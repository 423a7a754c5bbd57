import Mathlib.Data.List.Chain
import NumberedBasic.Proofs.ListedText
import NumberedBasic.Proofs.Merging
import NumberedBasic.Proofs.SteadyReading

/-!
# Joined tokens

After scanning, `GO` and `TO` become one keyword and two signs become one relation. `Joins` says how
this goes, from left to right, and `Joins.eq` that it is what `joinGo` and `joinSigns` do together.
The text of a joined token shows its `parts`, and `Joins.again` says that the parts of a line are
joined to the same line. That holds only where no relation follows another: `=` before `<=` would be
joined with its first sign.
-/

set_option autoImplicit false

namespace NumberedBasic

namespace Token

/-- The tokens that a token is joined from, as its text shows them. -/
def parts : Token → List Token
  | .word .GO_TO => [.name (.plain "GO"), .blank 1, .word .TO]
  | .word .GO_SUB => [.name (.plain "GO"), .blank 1, .name (.plain "SUB")]
  | .operator (.binary .lessEqual) => [.operator (.binary .less), .operator (.binary .equal)]
  | .operator (.binary .greaterEqual) => [.operator (.binary .greater), .operator (.binary .equal)]
  | .operator (.binary .notEqual) => [.operator (.binary .less), .operator (.binary .greater)]
  | t => [t]

/-- A token and the tokens that it is joined from are listed as the same text. -/
theorem listed_parts (t : Token) : listed (parts t) = t.text.toList := by
  cases t with
  | word w => cases w <;> rfl
  | operator op =>
    cases op with
    | binary op => cases op <;> rfl
    | not => rfl
  | _ => simp [parts]

/-- Tokens are listed one after the other. -/
theorem listed_append (ts us : List Token) : listed (ts ++ us) = listed ts ++ listed us :=
  List.flatMap_append

/-- How tokens are joined from left to right, one step after another. -/
inductive Joins : List Token → List Token → Prop
  | nil : Joins [] []
  | go {a b c t : Token} {ts us : List Token} (spelled : goWord? a b c = some t)
    (more : Joins ts us) : Joins (a :: b :: c :: ts) (t :: us)
  | signs {a b t : Token} {ts us : List Token} (spelled : relation? a b = some t)
    (more : Joins ts us) : Joins (a :: b :: ts) (t :: us)
  | keep {a : Token} {ts us : List Token} (whole : parts a = [a])
    (noGo : ∀ b c rest, ts = b :: c :: rest → goWord? a b c = none)
    (noSigns : ∀ b rest, ts = b :: rest → relation? a b = none) (more : Joins ts us) :
    Joins (a :: ts) (a :: us)

/-- Two signs spell a relation together in either order; its own text has one of them. -/
theorem relation?_eq_some {a b t : Token} (h : relation? a b = some t) :
    ∃ x y x' y' : BinaryOp, a = .operator (.binary x) ∧ b = .operator (.binary y) ∧
      x.isSign = true ∧ y.isSign = true ∧ x'.isSign = true ∧ y'.isSign = true ∧
      parts t = [.operator (.binary x'), .operator (.binary y')] ∧
      relation? (.operator (.binary x')) (.operator (.binary y')) = some t := by
  unfold relation? at h
  split at h
  · next x y =>
    split at h <;> cases h <;> exact ⟨_, _, _, _, rfl, rfl, rfl, rfl, rfl, rfl, rfl, rfl⟩
  · cases h

section Joins

variable {a : Token} {ts us : List Token}

/-- Joining with `GO` either leaves the first token as it is or makes it a word. -/
theorem head_joinGo {b : Token} {rest : List Token} (h : joinGo ts = b :: rest) :
    (∃ w, b = .word w) ∨ ∃ rest, ts = b :: rest := by
  match ts with
  | [] => cases h
  | [c] | [c, d] =>
    cases h
    exact .inr ⟨_, rfl⟩
  | c :: d :: e :: ts =>
    rw [joinGo] at h
    split at h
    · next t spelled =>
      cases h
      obtain ⟨-, -, ⟨-, word⟩ | ⟨-, word⟩⟩ := goWord?_eq_some spelled
      · exact .inl ⟨_, word⟩
      · exact .inl ⟨_, word⟩
    · cases h
      exact .inr ⟨_, rfl⟩

/-- No relation is joined with a word. -/
theorem relation?_word (a : Token) (w : Word) : relation? a (.word w) = none := by
  cases a with
  | operator op => cases op <;> rfl
  | _ => rfl

/-- What tokens are joined to step by step is what joining yields. -/
theorem Joins.eq (joins : Joins ts us) : joinSigns (joinGo ts) = us := by
  induction joins with
  | nil => rfl
  | go spelled more ih =>
    rw [joinGo, spelled]
    obtain ⟨-, -, ⟨-, rfl⟩ | ⟨-, rfl⟩⟩ := goWord?_eq_some spelled
    · rw [joinSigns_cons (fun _ _ _ => rfl), ih]
    · rw [joinSigns_cons (fun _ _ _ => rfl), ih]
  | signs spelled more ih =>
    obtain ⟨x, y, -, -, rfl, rfl, -⟩ := relation?_eq_some spelled
    rw [joinGo_cons (fun _ _ _ _ => rfl), joinGo_cons (fun _ _ _ _ => rfl), joinSigns, spelled, ih]
  | @keep a ts us whole noGo noSigns more ih =>
    rw [joinGo_cons noGo, joinSigns_cons, ih]
    intro b rest joined
    rcases head_joinGo joined with ⟨w, rfl⟩ | ⟨rest, rfl⟩
    · exact relation?_word a w
    · exact noSigns b rest rfl

/-- Tokens that are not joined from others yet can be joined step by step. -/
theorem exists_joins (n : Nat) (ts : List Token) (short : ts.length ≤ n)
    (whole : ∀ t ∈ ts, parts t = [t]) : ∃ us, Joins ts us := by
  induction n generalizing ts with
  | zero =>
    cases ts with
    | nil => exact ⟨[], .nil⟩
    | cons a ts => cases short
  | succ n ih =>
    cases ts with
    | nil => exact ⟨[], .nil⟩
    | cons a ts =>
      by_cases go : ∃ b c rest t, ts = b :: c :: rest ∧ goWord? a b c = some t
      · obtain ⟨b, c, rest, t, rfl, spelled⟩ := go
        obtain ⟨us, joins⟩ := ih rest (by simp at short; omega)
          (fun t member => whole t (by simp [member]))
        exact ⟨_, .go spelled joins⟩
      by_cases signs : ∃ b rest t, ts = b :: rest ∧ relation? a b = some t
      · obtain ⟨b, rest, t, rfl, spelled⟩ := signs
        obtain ⟨us, joins⟩ := ih rest (by simp at short; omega)
          (fun t member => whole t (by simp [member]))
        exact ⟨_, .signs spelled joins⟩
      obtain ⟨us, joins⟩ := ih ts (by simp at short; omega)
          (fun t member => whole t (by simp [member]))
      refine ⟨_, .keep (whole a List.mem_cons_self) ?_ ?_ joins⟩
      · intro b c rest same
        rw [Option.eq_none_iff_forall_ne_some]
        intro t spelled
        exact go ⟨b, c, rest, t, same, spelled⟩
      · intro b rest same
        rw [Option.eq_none_iff_forall_ne_some]
        intro t spelled
        exact signs ⟨b, rest, t, same, spelled⟩

/-- Tokens that none was joined from are joined as `joinGo` and `joinSigns` say. -/
theorem joins_of_whole (whole : ∀ t ∈ ts, parts t = [t]) : Joins ts (joinSigns (joinGo ts)) := by
  obtain ⟨us, joins⟩ := exists_joins ts.length ts (Nat.le_refl _) whole
  rwa [joins.eq]

/-- A token is joined from nothing else, from `GO` and what follows it, or from signs of
relations. -/
theorem parts_cases (t : Token) :
    parts t = [t] ∨ (∃ rest, parts t = .name (.plain "GO") :: rest) ∨
      t.isRelation = true ∧ ∃ op rest, parts t = .operator op :: rest := by
  cases t with
  | word w =>
    cases w with
    | GO_TO | GO_SUB => exact .inr (.inl ⟨_, rfl⟩)
    | _ => exact .inl rfl
  | operator op =>
    cases op with
    | binary op =>
      cases op with
      | lessEqual | greaterEqual | notEqual => exact .inr (.inr ⟨rfl, _, _, rfl⟩)
      | _ => exact .inl rfl
    | not => exact .inl rfl
  | _ => exact .inl rfl

/-- A token that is not joined from others has come first among those that were joined. -/
theorem Joins.of_whole {t : Token} (joins : Joins ts (t :: us)) (whole : parts t = [t]) :
    ∃ rest, ts = t :: rest ∧ Joins rest us := by
  cases joins with
  | go spelled more =>
    obtain ⟨-, -, ⟨-, rfl⟩ | ⟨-, rfl⟩⟩ := goWord?_eq_some spelled
    · cases whole
    · cases whole
  | signs spelled more =>
    obtain ⟨-, -, x, y, -, -, -, -, -, -, two, -⟩ := relation?_eq_some spelled
    rw [two] at whole
    cases whole
  | keep _ _ _ more => exact ⟨_, rfl, more⟩

/-- Only relations are joined to relations. -/
theorem isRelation_of_relation? {b t : Token} (h : relation? a b = some t) :
    a.isRelation = true ∧ b.isRelation = true := by
  obtain ⟨x, y, -, -, rfl, rfl, first, second, -⟩ := relation?_eq_some h
  constructor
  · cases x <;> first | rfl | cases first
  · cases y <;> first | rfl | cases second

/-- No relation follows another. -/
def Apart (ts : List Token) : Prop :=
  ts.IsChain fun a b => (a.isRelation && b.isRelation) = false

/-- Where no relation follows another, a token is not joined with the one that is listed after
it. -/
theorem relation?_parts (apart : Apart (a :: us)) {b : Token} {rest : List Token}
    (next : us.flatMap parts ++ [.endOfLine] = b :: rest) : relation? a b = none := by
  rw [Option.eq_none_iff_forall_ne_some]
  intro t spelled
  obtain ⟨left, right⟩ := isRelation_of_relation? spelled
  cases us with
  | nil =>
    cases next
    cases right
  | cons x us =>
    have relation : x.isRelation = true := by
      rcases parts_cases x with whole | ⟨more, go⟩ | ⟨relation, -⟩
      · rw [List.flatMap_cons, whole] at next
        cases next
        exact right
      · rw [List.flatMap_cons, go] at next
        cases next
        cases right
      · exact relation
    have apart := (List.isChain_cons_cons.mp apart).1
    rw [left, relation] at apart
    cases apart

/-- A token that starts no other one stands for itself. -/
theorem exists_of_parts {b : Token} {more : List Token}
    (next : us.flatMap parts ++ [.endOfLine] = b :: more) (inner : b ≠ .endOfLine)
    (noGo : b ≠ .name (.plain "GO")) (noSign : ∀ op, b ≠ .operator op) :
    parts b = [b] ∧ ∃ us', us = b :: us' ∧ us'.flatMap parts ++ [.endOfLine] = more := by
  cases us with
  | nil =>
    obtain ⟨same, -⟩ := List.cons.inj next
    exact absurd same.symm inner
  | cons x us =>
    rw [List.flatMap_cons] at next
    rcases parts_cases x with whole | ⟨rest, go⟩ | ⟨-, op, rest, sign⟩
    · rw [whole] at next
      obtain ⟨rfl, after⟩ := List.cons.inj next
      exact ⟨whole, us, rfl, after⟩
    · rw [go] at next
      obtain ⟨same, -⟩ := List.cons.inj next
      exact absurd same.symm noGo
    · rw [sign] at next
      obtain ⟨same, -⟩ := List.cons.inj next
      exact absurd same.symm (noSign op)

/-- A token that was not joined with the ones after it by `GO` is not joined with their parts
either. -/
theorem goWord?_parts {W rest more : List Token} {b c : Token} (joins : Joins W (us ++ rest))
    (noGo : ∀ b c rest, W = b :: c :: rest → goWord? a b c = none)
    (next : us.flatMap parts ++ [.endOfLine] = b :: c :: more) : goWord? a b c = none := by
  rw [Option.eq_none_iff_forall_ne_some]
  intro t spelled
  obtain ⟨-, ⟨w, rfl⟩, second⟩ := goWord?_eq_some spelled
  have inner : c ≠ .endOfLine ∧ c ≠ .name (.plain "GO") ∧ ∀ op, c ≠ .operator op := by
    rcases second with ⟨rfl, -⟩ | ⟨rfl, -⟩ <;> simp
  -- Neither the blank nor what follows it can come from a joined token, so both were there before.
  obtain ⟨blank, vs, rfl, later⟩ := exists_of_parts next (by simp) (by simp) (by simp)
  obtain ⟨whole, ws, rfl, -⟩ := exists_of_parts later inner.1 inner.2.1 inner.2.2
  obtain ⟨W₁, rfl, joins₁⟩ := joins.of_whole blank
  obtain ⟨W₂, rfl, -⟩ := joins₁.of_whole whole
  rw [noGo _ _ _ rfl] at spelled
  cases spelled

/-- The tokens of a listed line are joined as before. -/
theorem Joins.again {W rest : List Token} (joins : Joins W (us ++ rest)) (apart : Apart us) :
    Joins (us.flatMap parts ++ [.endOfLine]) (us ++ [.endOfLine]) := by
  induction us generalizing W with
  | nil => exact .keep rfl (fun _ _ _ h => by cases h) (fun _ _ h => by cases h) .nil
  | cons a us ih =>
    have tail : Apart us := apart.tail
    cases joins with
    | go spelled more =>
      obtain ⟨-, -, ⟨-, rfl⟩ | ⟨-, rfl⟩⟩ := goWord?_eq_some spelled
      · exact .go rfl (ih more tail)
      · exact .go rfl (ih more tail)
    | signs spelled more =>
      obtain ⟨-, -, x, y, -, -, -, -, -, -, two, again⟩ := relation?_eq_some spelled
      rw [List.flatMap_cons, two]
      exact .signs again (ih more tail)
    | keep whole noGo noSigns more =>
      rw [List.flatMap_cons, whole]
      refine .keep whole ?_ ?_ (ih more tail)
      · intro b c rest next
        exact goWord?_parts more noGo next
      · intro b rest next
        exact relation?_parts apart next

end Joins

end Token

end NumberedBasic
