import Mathlib.Data.List.Chain
import NumberedBasic.Token.Scan

/-!
# Tokens are merged from left to right

The scanner merges tokens in two steps: it looks for all places where tokens spell a keyword or a
relation together, and then puts the merged tokens there, from the last place to the first. What
comes out is the same as if one pass over the line took the first rule that fits, or else kept a
token, and went on behind it. That pass is `joinGo` for keywords and `joinSigns` for relations, and
`scanLine_eq` is what other modules use of it. `Rewrites` says the same of any rules, without an
algorithm.
-/

set_option autoImplicit false

namespace NumberedBasic.Token

/-- One pass that makes `GO TO` and `GO SUB`, written with blanks between the parts, into one
keyword each. -/
def joinGo : List Token → List Token
  | a :: b :: c :: ts =>
    match goWord? a b c with
    | some t => t :: joinGo ts
    | none => a :: joinGo (b :: c :: ts)
  | ts => ts

/-- One pass that makes two signs that spell a relation together into that relation. -/
def joinSigns : List Token → List Token
  | a :: b :: ts =>
    match relation? a b with
    | some t => t :: joinSigns ts
    | none => a :: joinSigns (b :: ts)
  | ts => ts

/-- What is joined with `GO` is a `TO` or the name `SUB`, with a blank between the two. -/
theorem goWord?_eq_some {a b c t : Token} (h : goWord? a b c = some t) :
    a = .name (.plain "GO") ∧ (∃ w, b = .blank w) ∧
      (c = .word .TO ∧ t = .word .GO_TO ∨ c = .name (.plain "SUB") ∧ t = .word .GO_SUB) := by
  unfold goWord? at h
  split at h
  · next go w =>
    split at h
    · next same =>
      cases h
      exact ⟨by rw [same], ⟨w, rfl⟩, .inl ⟨rfl, rfl⟩⟩
    · cases h
  · next go w sub =>
    split at h
    · next same =>
      cases h
      exact ⟨by rw [same.1], ⟨w, rfl⟩, .inr ⟨by rw [same.2], rfl⟩⟩
    · cases h
  · cases h

section Passes

variable {a : Token} {ts us : List Token}

/-- A token that no word is made of together with the next ones is kept by the first pass. -/
theorem joinGo_cons (h : ∀ b c rest, ts = b :: c :: rest → goWord? a b c = none) :
    joinGo (a :: ts) = a :: joinGo ts := by
  match ts with
  | [] | [b] => rfl
  | b :: c :: rest => rw [joinGo, h b c rest rfl]

/-- A token that no relation is made of together with the next one is kept by the second pass. -/
theorem joinSigns_cons (h : ∀ b rest, ts = b :: rest → relation? a b = none) :
    joinSigns (a :: ts) = a :: joinSigns ts := by
  match ts with
  | [] => rfl
  | b :: rest => rw [joinSigns, h b rest rfl]

end Passes

/-! ## Splicing -/

/-- Places that were found behind `k` more tokens. -/
def behind (k : Nat) (found : List (Nat × Token)) : List (Nat × Token) :=
  found.map (Prod.map (· + k) id)

/-- Places behind some tokens and more are behind all of them. -/
theorem behind_behind (j k : Nat) (found : List (Nat × Token)) :
    behind j (behind k found) = behind (k + j) found := by
  simp [behind, Nat.add_assoc]

/-- Splicing behind some tokens leaves those as they are. -/
theorem splice_append (width index : Nat) (t : Token) (before ts : List Token) :
    splice width (index + before.length) t (before ++ ts) = before ++ splice width index t ts := by
  have start : (before ++ ts).take (index + before.length) = before ++ ts.take index := by
    rw [Nat.add_comm, List.take_length_add_append]
  have stop : (before ++ ts).drop (index + before.length + width) = ts.drop (index + width) := by
    rw [Nat.add_right_comm, Nat.add_comm, List.drop_length_add_append]
  rw [splice, splice, start, stop, List.append_assoc]

/-- Splicing behind some tokens leaves them alone. -/
theorem spliceAll_behind (width : Nat) (found : List (Nat × Token)) (before ts : List Token) :
    spliceAll width (behind before.length found) (before ++ ts) =
      before ++ spliceAll width found ts := by
  induction found with
  | nil => rfl
  | cons place found ih =>
    have last : spliceAll width (behind before.length (place :: found)) (before ++ ts) =
        splice width (place.1 + before.length) place.2
          (spliceAll width (behind before.length found) (before ++ ts)) := rfl
    rw [last, ih, splice_append]
    rfl

/-- A token in the place of those at the front, which no other place reaches into. -/
theorem spliceAll_front (before : List Token) (t : Token) (found : List (Nat × Token))
    (ts : List Token) :
    spliceAll before.length ((0, t) :: behind before.length found) (before ++ ts) =
      t :: spliceAll before.length found ts := by
  have last : spliceAll before.length ((0, t) :: behind before.length found) (before ++ ts) =
      splice before.length 0 t
        (spliceAll before.length (behind before.length found) (before ++ ts)) := rfl
  rw [last, spliceAll_behind, splice, Nat.zero_add, List.drop_left]
  rfl

/-! ## Keywords -/

/-- Three tokens at the front are looked at first. -/
theorem findGo_cons_cons_cons (a b c : Token) (ts : List Token) :
    findGo (a :: b :: c :: ts) =
      ((goWord? a b c).map fun t => (0, t)).toList ++ behind 1 (findGo (b :: c :: ts)) := by
  simp only [findGo, List.tail_cons, List.zip_cons_cons, List.zipIdx_cons, Nat.zero_add]
  rw [List.zipIdx_succ]
  cases found : goWord? a b c <;>
    simp [found, behind, List.map_filterMap, List.filterMap_map, Function.comp_def]

/-- A token that is not `GO` shifts what is found by one place. -/
theorem findGo_cons {a : Token} (other : a ≠ .name (.plain "GO")) (ts : List Token) :
    findGo (a :: ts) = behind 1 (findGo ts) := by
  match ts with
  | [] | [b] => rfl
  | b :: c :: ts =>
    have none : goWord? a b c = none := by
      rw [Option.eq_none_iff_forall_ne_some]
      intro t spelled
      exact other (goWord?_eq_some spelled).1
    rw [findGo_cons_cons_cons, none]
    rfl

/-- No keyword starts inside another one, so none of the places that are found overlap. -/
theorem findGo_of_goWord? {a b c t : Token} (spelled : goWord? a b c = some t) (ts : List Token) :
    findGo (a :: b :: c :: ts) = (0, t) :: behind 3 (findGo ts) := by
  have inside : findGo (b :: c :: ts) = behind 2 (findGo ts) := by
    obtain ⟨-, ⟨w, rfl⟩, second⟩ := goWord?_eq_some spelled
    have other : c ≠ .name (.plain "GO") := by
      obtain ⟨rfl, -⟩ | ⟨rfl, -⟩ := second <;> decide
    rw [findGo_cons (a := .blank w) nofun, findGo_cons other, behind_behind]
  rw [findGo_cons_cons_cons, spelled, inside, behind_behind]
  rfl

/-- Keywords are merged as in one pass. -/
theorem mergeGo_eq (ts : List Token) : mergeGo ts = joinGo ts := by
  fun_induction joinGo ts with
  | case1 a b c ts t spelled ih =>
    rw [mergeGo, findGo_of_goWord? spelled, ← ih]
    exact spliceAll_front [a, b, c] t (findGo ts) ts
  | case2 a b c ts none ih =>
    rw [mergeGo, findGo_cons_cons_cons, none, ← ih]
    exact spliceAll_behind 3 (findGo (b :: c :: ts)) [a] (b :: c :: ts)
  | case3 ts short =>
    have nothing : findGo ts = [] := by
      match ts with
      | [] | [a] | [a, b] => rfl
      | a :: b :: c :: rest => exact absurd rfl (short a b c rest)
    rw [mergeGo, nothing]
    rfl

/-! ## Relations -/

/-- Pairs that are counted from further on are found further on. -/
theorem signsAmong_map (k : Nat) (pairs : List ((Token × Token) × Nat)) :
    signsAmong (pairs.map (Prod.map id (· + k))) = behind k (signsAmong pairs) := by
  fun_induction signsAmong pairs with
  | case1 => rfl
  | case2 a b index t pair pairs spelled ih => simp [signsAmong, spelled, ih, behind]
  | case3 a b index t spelled => simp [signsAmong, spelled, behind]
  | case4 a b index pairs none ih => simp [signsAmong, none, ih]

/-- The pairs of neighbours, counted from `k` on, yield what is found behind `k` tokens. -/
theorem signsAmong_zipIdx (ts : List Token) (k : Nat) :
    signsAmong ((ts.zip ts.tail).zipIdx k) = behind k (findSigns ts) := by
  rw [findSigns, ← signsAmong_map, List.map_snd_add_zipIdx_eq_zipIdx, Nat.add_zero]

/-- Two signs at the front that spell a relation are used up. -/
theorem findSigns_of_relation? {a b t : Token} (spelled : relation? a b = some t)
    (ts : List Token) : findSigns (a :: b :: ts) = (0, t) :: behind 2 (findSigns ts) := by
  cases ts with
  | nil => simp [findSigns, signsAmong, spelled, behind]
  | cons c ts =>
    rw [← signsAmong_zipIdx]
    simp [findSigns, signsAmong, spelled]

/-- A pair that spells no relation shifts what is found by one place. -/
theorem findSigns_of_none {a b : Token} (none : relation? a b = none) (ts : List Token) :
    findSigns (a :: b :: ts) = behind 1 (findSigns (b :: ts)) := by
  rw [← signsAmong_zipIdx]
  simp [findSigns, signsAmong, none]

/-- Relations are merged as in one pass. -/
theorem mergeSigns_eq (ts : List Token) : mergeSigns ts = joinSigns ts := by
  fun_induction joinSigns ts with
  | case1 a b ts t spelled ih =>
    rw [mergeSigns, findSigns_of_relation? spelled, ← ih]
    exact spliceAll_front [a, b] t (findSigns ts) ts
  | case2 a b ts none ih =>
    rw [mergeSigns, findSigns_of_none none, ← ih]
    exact spliceAll_behind 2 (findSigns (b :: ts)) [a] (b :: ts)
  | case3 ts short =>
    have nothing : findSigns ts = [] := by
      match ts with
      | [] | [a] => rfl
      | a :: b :: rest => exact absurd rfl (short a b rest)
    rw [mergeSigns, nothing]
    rfl

/-- The tokens of a line, with the merging done in one pass for keywords and one for relations. -/
theorem scanLine_eq (cs : List Char) :
    scanLine cs = ((takeLineNumber cs).1,
      joinSigns (joinGo (trimEnd (scan .statements (takeLineNumber cs).2) ++ [.endOfLine]))) := by
  rw [← mergeSigns_eq, ← mergeGo_eq]
  rfl

/-! ## Greedy rewriting -/

/-- Rewriting from left to right: a rule that fits what is at the front is applied, and if there is
none, one token is kept. -/
inductive Rewrites (Rule : List Token → Token → Prop) : List Token → List Token → Prop
  | done : Rewrites Rule [] []
  | apply {pattern ts us : List Token} {t : Token} (rule : Rule pattern t)
      (rest : Rewrites Rule ts us) : Rewrites Rule (pattern ++ ts) (t :: us)
  | keep {a : Token} {ts us : List Token}
      (unfit : ∀ pattern t, Rule pattern t → ¬pattern <+: a :: ts) (rest : Rewrites Rule ts us) :
      Rewrites Rule (a :: ts) (a :: us)

/-- `GO` and what follows it after a blank. -/
inductive GoRule : List Token → Token → Prop
  | goTo (width : Nat) : GoRule [.name (.plain "GO"), .blank width, .word .TO] (.word .GO_TO)
  | goSub (width : Nat) :
    GoRule [.name (.plain "GO"), .blank width, .name (.plain "SUB")] (.word .GO_SUB)

/-- The sign of a binary operator. -/
abbrev sign (op : BinaryOp) : Token :=
  .operator (.binary op)

/-- Two signs, in either order, and the relation they spell. -/
inductive SignRule : List Token → Token → Prop
  | lessEqual : SignRule [sign .less, sign .equal] (sign .lessEqual)
  | equalLess : SignRule [sign .equal, sign .less] (sign .lessEqual)
  | greaterEqual : SignRule [sign .greater, sign .equal] (sign .greaterEqual)
  | equalGreater : SignRule [sign .equal, sign .greater] (sign .greaterEqual)
  | lessGreater : SignRule [sign .less, sign .greater] (sign .notEqual)
  | greaterLess : SignRule [sign .greater, sign .less] (sign .notEqual)

/-- A pass that applies a rule where one fits, and keeps a token where none does, computes the one
list that tokens are rewritten to. -/
theorem rewrites_iff {Rule : List Token → Token → Prop} {pass : List Token → List Token}
    (full : ∀ {pattern t}, Rule pattern t → pattern ≠ []) (done : pass [] = [])
    (apply : ∀ {pattern t} ts, Rule pattern t → pass (pattern ++ ts) = t :: pass ts)
    (keep : ∀ {a ts}, (∀ pattern t, Rule pattern t → ¬pattern <+: a :: ts) →
      pass (a :: ts) = a :: pass ts)
    {ts us : List Token} : Rewrites Rule ts us ↔ us = pass ts := by
  constructor
  · intro rewrites
    induction rewrites with
    | done => exact done.symm
    | apply rule _ ih => rw [apply _ rule, ih]
    | keep unfit _ ih => rw [keep unfit, ih]
  · rintro rfl
    -- a rule uses up at least one token, so the rest is shorter
    induction length : ts.length using Nat.strong_induction_on generalizing ts with
    | _ n ih =>
      cases ts with
      | nil =>
        rw [done]
        exact .done
      | cons a ts =>
        by_cases fits : ∃ pattern t, Rule pattern t ∧ pattern <+: a :: ts
        · obtain ⟨pattern, t, rule, rest, front⟩ := fits
          have shorter : rest.length < n := by
            have := List.length_pos_iff.mpr (full rule)
            rw [← length, ← front, List.length_append]
            omega
          rw [← front, apply _ rule]
          exact .apply rule (ih _ shorter rfl)
        · have unfit : ∀ pattern t, Rule pattern t → ¬pattern <+: a :: ts :=
            fun pattern t rule front => fits ⟨pattern, t, rule, front⟩
          rw [keep unfit]
          exact .keep unfit (ih _ (by simp [← length]) rfl)

/-- The first pass is the greedy rewriting with the rule for `GO`. -/
theorem rewrites_go_iff {ts us : List Token} : Rewrites GoRule ts us ↔ us = joinGo ts := by
  refine rewrites_iff ?_ rfl ?_ ?_
  · rintro pattern t (_ | _) <;> exact List.cons_ne_nil _ _
  · rintro pattern t ts (_ | _) <;> rfl
  · intro a ts unfit
    refine joinGo_cons fun b c rest same => ?_
    rw [Option.eq_none_iff_forall_ne_some]
    intro t spelled
    obtain ⟨rfl, ⟨w, rfl⟩, ⟨rfl, rfl⟩ | ⟨rfl, rfl⟩⟩ := goWord?_eq_some spelled
    · exact unfit _ _ (.goTo w) ⟨rest, by rw [same]; rfl⟩
    · exact unfit _ _ (.goSub w) ⟨rest, by rw [same]; rfl⟩

/-- Two tokens spell a relation exactly by the rule for signs. -/
theorem relation?_eq_some_iff {a b t : Token} : relation? a b = some t ↔ SignRule [a, b] t := by
  constructor
  · intro spelled
    unfold relation? at spelled
    split at spelled
    · split at spelled <;> cases spelled <;> constructor
    · cases spelled
  · intro rule
    cases rule <;> rfl

/-- The second pass is the greedy rewriting with the rule for signs. -/
theorem rewrites_signs_iff {ts us : List Token} : Rewrites SignRule ts us ↔ us = joinSigns ts := by
  refine rewrites_iff ?_ rfl ?_ ?_
  · rintro pattern t (_ | _) <;> exact List.cons_ne_nil _ _
  · rintro pattern t ts (_ | _) <;> rfl
  · intro a ts unfit
    refine joinSigns_cons fun b rest same => ?_
    rw [Option.eq_none_iff_forall_ne_some]
    intro t spelled
    exact unfit _ t (relation?_eq_some_iff.mp spelled) ⟨rest, by rw [same]; rfl⟩

/-- A relation that two signs spell is no part of another one. -/
theorem SignRule.used {a b t : Token} (rule : SignRule [a, b] t) (x u : Token) :
    ¬SignRule [t, x] u ∧ ¬SignRule [x, t] u := by
  cases rule <;> exact ⟨nofun, nofun⟩

/-- The second pass keeps the first token, or makes it a relation together with the one after it. -/
theorem head_joinSigns {b c : Token} {ts : List Token} (first : c ∈ (joinSigns (b :: ts)).head?) :
    c = b ∨ ∃ x, SignRule [b, x] c := by
  cases ts with
  | nil =>
    cases first
    exact .inl rfl
  | cons x ts =>
    rw [joinSigns] at first
    split at first
    · next t spelled =>
      cases first
      exact .inr ⟨x, relation?_eq_some_iff.mp spelled⟩
    · cases first
      exact .inl rfl

/-- One pass leaves no two signs beside each other that spell a relation. -/
theorem isChain_joinSigns (ts : List Token) :
    (joinSigns ts).IsChain fun a b => ∀ t, ¬SignRule [a, b] t := by
  fun_induction joinSigns ts with
  | case1 a b ts t spelled ih =>
    refine List.isChain_cons.mpr ⟨fun c _ u => ?_, ih⟩
    exact ((relation?_eq_some_iff.mp spelled).used c u).1
  | case2 a b ts none ih =>
    refine List.isChain_cons.mpr ⟨fun c first u => ?_, ih⟩
    rcases head_joinSigns first with rfl | ⟨x, rule⟩
    · intro rule
      rw [relation?_eq_some_iff.mpr rule] at none
      cases none
    · exact (rule.used a u).2
  | case3 ts short =>
    match ts with
    | [] => exact .nil
    | [a] => exact .singleton a
    | a :: b :: rest => exact absurd rfl (short a b rest)

/-- Relations and keywords are merged from left to right, by taking a rule that fits or else keeping
a token: looking for places and splicing comes to the same as one pass, and to the one list that the
rules rewrite the tokens to. After that no two signs beside each other spell a relation. -/
theorem merging_is_greedy (ts : List Token) :
    (mergeSigns ts = joinSigns ts ∧ (∀ us, Rewrites SignRule ts us ↔ us = mergeSigns ts) ∧
        (mergeSigns ts).IsChain fun a b => ∀ t, ¬SignRule [a, b] t) ∧
      mergeGo ts = joinGo ts ∧ ∀ us, Rewrites GoRule ts us ↔ us = mergeGo ts := by
  rw [mergeSigns_eq, mergeGo_eq]
  exact ⟨⟨rfl, fun _ => rewrites_signs_iff, isChain_joinSigns ts⟩, rfl, fun _ => rewrites_go_iff⟩

example :
    mergeSigns ([.equal, .less, .greater, .equal, .less, .greater].map sign) =
      [.lessEqual, .greaterEqual, .notEqual].map sign := by
  decide

end NumberedBasic.Token
