import NumberedBasic.Proofs.Joining

/-!
# The tokens of a line and of its listing

What `next` takes in a line determines how the tokens of the line go on (`Trimmed`), when blanks at
its end are dropped. With that, a line is followed from its first token to the last, beside the text
it was entered as: `listable_of_joins` says that its listing is scanned as the tokens that it was
joined from, except for an end of the line at which there is nothing to read (`Idle`).
-/

set_option autoImplicit false

namespace NumberedBasic

namespace Token

/-! ## What the tokens of a line were taken from -/

/-- Names and the tokens with a fixed spelling. -/
def isSpelled : Token → Bool
  | .name _ | .word _ | .operator _ | .leftParen | .rightParen | .comma | .colon | .semicolon =>
    true
  | _ => false

/-- What a spelling stands for has a fixed spelling. -/
theorem isSpelled_of_ofSpelling? {cs : List Char} {t : Token} (h : ofSpelling? cs = some t) :
    t.isSpelled = true := by
  have all : fixed.all isSpelled = true := by decide
  exact List.all_eq_true.mp all t (fixed_of_ofSpelling? h).1

/-- What is read as a name is a name or has a fixed spelling. -/
theorem isSpelled_of_takeName {seen : List Char} {digit : Bool} {c : Char} {cs rest : List Char}
    {t : Token} (taken : takeName seen digit c cs = (t, rest)) : t.isSpelled = true := by
  fun_induction takeName seen digit c cs with
  | case1 _ _ _ _ _ _ spelled =>
    cases taken
    exact isSpelled_of_ofSpelling? spelled
  | case2 | case3 | case5 =>
    cases taken
    rfl
  | case4 _ _ _ _ _ _ _ _ _ _ ih => exact ih taken

section Takes

variable {mode m : Mode} {c : Char} {cs rest : List Char} {t : Token}

/-- A blank token is taken from characters that are blank, outside of remarks. -/
theorem takes_blank {w : Nat} (takes : Takes mode c cs (.blank w) m rest) :
    mode ≠ .remark ∧ isGap c = true ∧ m = mode ∧ rest = cs.dropWhile isGap ∧ 0 < w := by
  cases takes with
  | gap other gap =>
    refine ⟨other, gap, rfl, List.dropWhile_cons_of_pos gap, ?_⟩
    rw [List.takeWhile_cons_of_pos gap]
    exact Nat.succ_pos _
  | name alpha taken => cases isSpelled_of_takeName taken
  | symbol _ _ _ _ spelled => cases isSpelled_of_ofSpelling? spelled

/-- A remark is taken up to the end of the line. -/
theorem takes_remark {s : String} (takes : Takes mode c cs (.remark s) m rest) :
    mode = .remark ∧ s = String.ofList (c :: cs) ∧ m = .remark ∧ rest = [] := by
  cases takes with
  | remark => exact ⟨rfl, rfl, rfl, rfl⟩
  | name alpha taken => cases isSpelled_of_takeName taken
  | symbol _ _ _ _ spelled => cases isSpelled_of_ofSpelling? spelled

/-- An unquoted data item is taken as far as characters may stand in one. -/
theorem takes_datum {s : String} (takes : Takes mode c cs (.datum s) m rest) :
    mode = .data ∧ m = .data ∧ isGap c = false ∧ c ≠ '"' ∧ isItem c = true ∧
      s = String.ofList (c :: cs.takeWhile isItem) ∧ rest = cs.dropWhile isItem := by
  cases takes with
  | datum solid plain item => exact ⟨rfl, rfl, solid, plain, item, rfl, rfl⟩
  | name alpha taken => cases isSpelled_of_takeName taken
  | symbol _ _ _ _ spelled => cases isSpelled_of_ofSpelling? spelled

/-- The end of a line is taken from no character. -/
theorem takes_ne_endOfLine (takes : Takes mode c cs .endOfLine m rest) : False := by
  cases takes with
  | name alpha taken => cases isSpelled_of_takeName taken
  | symbol _ _ _ _ spelled => cases isSpelled_of_ofSpelling? spelled

/-- A relation of one sign is taken from that sign alone. -/
theorem takes_sign {x : BinaryOp} (takes : Takes mode c cs (.operator (.binary x)) m rest)
    (sign : x.isSign = true) :
    mode = .statements ∧ m = .statements ∧ rest = cs ∧ kind c = .sign := by
  obtain ⟨d, text, kind, -⟩ := scan_sign sign
  cases takes with
  | name alpha taken =>
    obtain ⟨run, -, spelled, -⟩ := takeName_again taken
    have same : d = c.toUpper := by
      have := text.symm.trans spelled
      exact (List.cons.inj this).1
    rw [same, kind_toUpper, (isAlpha_iff c).mp alpha] at kind
    cases kind
  | symbol _ _ _ _ spelled =>
    have same : d = c := List.singleton_inj.mp (text.symm.trans (fixed_of_ofSpelling? spelled).2)
    exact ⟨rfl, rfl, rfl, by rw [← same, kind]⟩

/-- Only a blank or a second sign makes a token that is joined from others. -/
theorem parts_of_text
    (h : ∀ d ∈ t.text.toList.tail, d.isAlpha = true ∨ d.isDigit = true ∨ d = '$') :
    parts t = [t] := by
  cases t with
  | word w =>
    cases w with
    | GO_TO | GO_SUB => exact absurd (h ' ' (by decide)) (by decide)
    | _ => rfl
  | operator op =>
    cases op with
    | binary op =>
      cases op with
      | lessEqual | greaterEqual => exact absurd (h '=' (by decide)) (by decide)
      | notEqual => exact absurd (h '>' (by decide)) (by decide)
      | _ => rfl
    | not => rfl
  | _ => rfl

/-- What is taken from a text is not joined from other tokens. -/
theorem parts_of_takes (takes : Takes mode c cs t m rest) : parts t = [t] := by
  cases takes with
  | name alpha taken =>
    obtain ⟨run, -, spelled, inside, -⟩ := takeName_again taken
    apply parts_of_text
    rw [spelled]
    intro d member
    obtain ⟨x, among, rfl⟩ := List.mem_map.mp member
    have same : kind x.toUpper = kind x := kind_toUpper x
    rw [isAlpha_eq_of_kind_eq same, isDigit_eq_of_kind_eq same, eq_iff_of_kind_eq same rfl]
    exact inside x among
  | symbol _ _ _ _ spelled =>
    apply parts_of_text
    rw [(fixed_of_ofSpelling? spelled).2]
    rintro d ⟨⟩
  | _ => rfl

end Takes

/-- What is scanned from a text is not joined from other tokens. -/
theorem parts_of_mem_scan {mode : Mode} {cs : List Char} {t : Token} (h : t ∈ scan mode cs) :
    parts t = [t] := by
  fun_induction scan mode cs with
  | case1 => cases h
  | case2 mode c cs found ih =>
    rcases List.mem_cons.mp h with rfl | later
    · exact parts_of_takes (takes_of_next rfl)
    · exact ih later

/-- Taking blanks off the end joins no tokens. -/
theorem parts_of_mem_trimEnd {ts : List Token} (whole : ∀ t ∈ ts, parts t = [t]) :
    ∀ t ∈ trimEnd ts, parts t = [t] := by
  have dropped : ∀ t ∈ dropBlank ts, parts t = [t] := by
    intro t member
    unfold dropBlank at member
    split at member
    · exact whole t (List.dropLast_subset _ member)
    · exact whole t member
  intro t member
  rw [trimEnd_eq] at member
  unfold tidy at member
  split at member
  · rcases List.mem_append.mp member with before | last
    · exact dropped t (List.dropLast_subset _ before)
    · rw [List.mem_singleton.mp last]
      rfl
  · rcases List.mem_append.mp member with before | last
    · exact dropped t (List.dropLast_subset _ before)
    · rw [List.mem_singleton.mp last]
      rfl
  · exact dropped t member

/-- The tokens of a text are joined step by step. -/
theorem joins_scan (mode : Mode) (cs : List Char) :
    Joins (trimEnd (scan mode cs) ++ [.endOfLine])
      (joinSigns (joinGo (trimEnd (scan mode cs) ++ [.endOfLine]))) := by
  apply joins_of_whole
  intro t member
  rcases List.mem_append.mp member with before | last
  · exact parts_of_mem_trimEnd (fun _ => parts_of_mem_scan) t before
  · rw [List.mem_singleton.mp last]
    rfl

/-! ## The tokens of a line, one after another -/

/-- How the tokens of a line start, when the blanks at its end are gone. -/
inductive Trimmed : Mode → List Char → List Token → Prop
  | nothing {mode : Mode} {cs : List Char} (gaps : ∀ c ∈ cs, isGap c = true) : Trimmed mode cs []
  | token {mode m : Mode} {c : Char} {cs rest : List Char} {t : Token}
    (takes : Takes mode c cs t m rest) (plain : ∀ s, t ≠ .remark s)
    (inner : ∀ s, t = .datum s → rest ≠ []) :
    Trimmed mode (c :: cs) (t :: trimEnd (scan m rest))
  | remark {c : Char} {cs : List Char} :
    Trimmed .remark (c :: cs) [.remark (String.ofList (Text.trimEnd (c :: cs)))]
  | datum {c : Char} {cs : List Char} (solid : isGap c = false) (plain : c ≠ '"')
    (items : ∀ d ∈ c :: cs, isItem d = true) :
    Trimmed .data (c :: cs) [.datum (String.ofList (Text.trimEnd (c :: cs)))]

/-- A blank may stand in a data item. -/
theorem isItem_of_isGap {c : Char} (h : isGap c = true) : isItem c = true := by
  simp only [isGap, Bool.or_eq_true, beq_iff_eq] at h
  rcases h with rfl | rfl <;> rfl

/-- A text that does not start with a blank has tokens, also without the blanks at its end. -/
theorem trimEnd_scan_ne_nil {mode : Mode} {c : Char} {cs : List Char} (solid : isGap c = false) :
    trimEnd (scan mode (c :: cs)) ≠ [] := by
  obtain ⟨⟨t, m, rest⟩, found⟩ : ∃ taken, next mode c cs = taken := ⟨_, rfl⟩
  rw [scan_of_next found]
  intro empty
  rcases trimEnd_eq_nil empty with none | ⟨w, blank⟩
  · cases none
  · obtain ⟨rfl, -⟩ := List.cons.inj blank
    rw [(takes_blank (takes_of_next found)).2.1] at solid
    cases solid

/-- The tokens of a text start in one of the ways in which the tokens of a line start. -/
theorem trimmed_scan (mode : Mode) (cs : List Char) : Trimmed mode cs (trimEnd (scan mode cs)) := by
  cases cs with
  | nil =>
    rw [scan]
    exact .nothing (by simp)
  | cons c cs =>
    obtain ⟨⟨t, m, rest⟩, found⟩ : ∃ taken, next mode c cs = taken := ⟨_, rfl⟩
    have takes := takes_of_next found
    rw [scan_of_next found]
    cases t with
    | remark s =>
      obtain ⟨rfl, rfl, rfl, rfl⟩ := takes_remark takes
      rw [scan, trimEnd_remark]
      exact .remark
    | blank w =>
      obtain ⟨other, gap, rfl, rfl, -⟩ := takes_blank takes
      -- The blanks close the line, or something solid follows them.
      cases rest : cs.dropWhile isGap with
      | nil =>
        have gaps := List.dropWhile_eq_nil_iff.mp rest
        rw [scan]
        exact .nothing (by simpa [gap] using gaps)
      | cons d ds =>
        have solid : isGap d = false := by
          have halt := any_head?_dropWhile isGap cs
          rwa [rest] at halt
        rw [rest] at takes
        rw [trimEnd_cons_of_ne_nil (trimEnd_scan_ne_nil solid)]
        exact .token takes (by simp) (by simp)
    | datum s =>
      obtain ⟨rfl, rfl, solid, plain, item, rfl, rfl⟩ := takes_datum takes
      cases rest : cs.dropWhile isItem with
      | nil =>
        have items := List.dropWhile_eq_nil_iff.mp rest
        rw [scan, List.takeWhile_eq_self_iff.mpr items, trimEnd_datum]
        exact .datum solid plain (by simpa [item] using items)
      | cons d ds =>
        have solid : isGap d = false := by
          have halt := any_head?_dropWhile isItem cs
          rw [rest] at halt
          cases gap : isGap d with
          | false => rfl
          | true => exact absurd ((isItem_of_isGap gap).symm.trans halt) (by simp)
        rw [rest] at takes
        rw [trimEnd_cons_of_ne_nil (trimEnd_scan_ne_nil solid)]
        exact .token takes (by simp) (by simp)
    | _ =>
      rw [trimEnd_cons_of_stays rfl]
      exact .token takes (by simp) (by simp)

/-- A token that lines cannot differ in is taken from the first characters, and the others from what
is left. -/
theorem exists_takes {mode : Mode} {cs : List Char} {t : Token} {ts : List Token}
    (h : trimEnd (scan mode cs) ++ [.endOfLine] = t :: ts) (inner : Lexeme.fixes t = true) :
    ∃ c cs' m rest, cs = c :: cs' ∧ Takes mode c cs' t m rest ∧
      trimEnd (scan m rest) ++ [.endOfLine] = ts := by
  have trimmed := trimmed_scan mode cs
  generalize trimEnd (scan mode cs) = us at h trimmed
  cases trimmed with
  | nothing | remark | datum =>
    cases h
    cases inner
  | token takes plain inner =>
    obtain ⟨rfl, rfl⟩ := List.cons.inj h
    exact ⟨_, _, _, _, rfl, takes, rfl⟩

/-- What a listing shows at the end of a line, though nothing is read there: an empty remark or data
item, perhaps after a blank. -/
inductive Idle : List Token → Prop
  | nil : Idle []
  | blank {w : Nat} {ts : List Token} (more : Idle ts) : Idle (.blank w :: ts)
  | remark : Idle [.remark ""]
  | datum : Idle [.datum ""]

/-- The line `ts` was entered as `cs`: apart from its idle end, its tokens are joined from the
tokens `vs`, and these are scanned again from its text. -/
structure Lists (mode : Mode) (cs : List Char) (ts us rest vs : List Token) : Prop where
  split : ts = us ++ (rest ++ [.endOfLine])
  idle : Idle rest
  inner : .endOfLine ∉ us
  parts_eq : us.flatMap parts = trimEnd vs
  listed_eq : listed vs = listed (us ++ rest)
  rescans : Rescans mode cs vs

/-- A token in front is listed before a line, if its text is scanned again together with that of the
line. -/
theorem Lists.cons {mode m : Mode} {cs left : List Char} {t : Token} {ts us rest vs : List Token}
    (lists : Lists m left ts us rest vs) (inner : t ≠ .endOfLine)
    (trim : trimEnd (parts t ++ vs) = parts t ++ trimEnd vs)
    (rescans : Rescans mode cs (parts t ++ vs)) :
    Lists mode cs (t :: ts) (t :: us) rest (parts t ++ vs) where
  split := by rw [lists.split, List.cons_append]
  idle := lists.idle
  inner := by
    rw [List.mem_cons, not_or]
    exact ⟨inner.symm, lists.inner⟩
  parts_eq := by rw [List.flatMap_cons, lists.parts_eq, trim]
  listed_eq := by
    rw [listed_append, listed_parts, lists.listed_eq, List.cons_append, listed_cons]
  rescans := rescans

/-- A line of which nothing is read is listed as nothing. -/
theorem lists_endOfLine {mode : Mode} {cs : List Char} {rest : List Token} (idle : Idle rest)
    (empty : listed rest = []) (nothing : Rescans mode cs []) :
    Lists mode cs (rest ++ [.endOfLine]) [] rest [] :=
  ⟨rfl, idle, by simp, rfl, by rw [List.nil_append, empty, listed_nil], nothing⟩

/-- Every token has parts. -/
theorem flatMap_parts_ne_nil {us : List Token} (full : us ≠ []) : us.flatMap parts ≠ [] := by
  obtain ⟨t, us, rfl⟩ := List.exists_cons_of_ne_nil full
  rw [List.flatMap_cons]
  rcases parts_cases t with whole | ⟨rest, go⟩ | ⟨-, op, rest, sign⟩
  · simp [whole]
  · simp [go]
  · simp [sign]

section Lists

variable {mode m : Mode} {c : Char} {cs left : List Char} {t : Token} {W ts us rest vs : List Token}

/-- If a line is listed as more than its idle end, not all of its tokens are blank. -/
theorem Lists.trimEnd_ne_nil (lists : Lists mode cs ts us rest vs) (full : us ≠ []) :
    trimEnd vs ≠ [] := by
  rw [← lists.parts_eq]
  exact flatMap_parts_ne_nil full

/-- A token that is not joined from others is listed before a line, if it is scanned again together
with the line. -/
theorem Lists.cons_whole (lists : Lists m left ts us rest vs) (whole : parts t = [t])
    (inner : t ≠ .endOfLine) (trim : trimEnd (t :: vs) = t :: trimEnd vs)
    (rescans : Rescans mode cs (t :: vs)) : Lists mode cs (t :: ts) (t :: us) rest (t :: vs) := by
  have split : parts t ++ vs = t :: vs := by rw [whole, List.singleton_append]
  rw [← split]
  apply lists.cons inner
  · rw [split, trim, whole, List.singleton_append]
  · rwa [split]

/-- A blank token that is scanned again was entered as a blank. -/
theorem Rescans.blank_head {w : Nat} (rescans : Rescans mode cs (.blank w :: vs)) :
    cs.head?.any isGap = true := by
  cases rescans with
  | token takes firm => cases firm
  | blank other gap => exact gap

/-- A blank belongs to the end of a line if nothing else follows it there. -/
theorem exists_lists_blank {w : Nat} (takes : Takes mode c cs (.blank w) m left)
    (lists : Lists m left ts us rest vs) :
    ∃ us rest vs, Lists mode (c :: cs) (.blank w :: ts) us rest vs := by
  obtain ⟨other, gap, rfl, rfl, wide⟩ := takes_blank takes
  have rescans : Rescans m (c :: cs) (.blank w :: vs) := .blank other gap wide lists.rescans
  by_cases full : us = []
  · subst full
    have alone : vs = [] := by
      rcases trimEnd_eq_nil lists.parts_eq.symm with none | ⟨w', rfl⟩
      · exact none
      · exact absurd lists.rescans.blank_head (by rw [any_head?_dropWhile]; simp)
    subst alone
    refine ⟨[], .blank w :: rest, [.blank w], ?_, .blank lists.idle, by simp, rfl, ?_, rescans⟩
    · rw [lists.split]
      rfl
    · rw [List.nil_append, listed_cons, listed_cons, lists.listed_eq, List.nil_append]
  · exact ⟨_, _, _, lists.cons_whole rfl (by simp)
      (trimEnd_cons_of_ne_nil (lists.trimEnd_ne_nil full)) rescans⟩

/-- A data item that is not the last one on its line is followed by a comma or a colon. -/
theorem exists_stop (takes : Takes mode c cs t m left) (inner : left ≠ []) {s : String}
    (item : t = .datum s) :
    ∃ u ts, trimEnd (scan m left) = u :: ts ∧ (u = .comma ∨ u = .colon) := by
  subst item
  obtain ⟨-, rfl, -, -, -, -, rfl⟩ := takes_datum takes
  have halt := any_head?_dropWhile isItem cs
  cases rest : cs.dropWhile isItem with
  | nil => exact absurd rest inner
  | cons d ds =>
    have stop : d = ',' ∨ d = ':' := by
      rw [rest] at halt
      simpa [isItem, Decidable.or_iff_not_imp_left] using halt
    rcases stop with rfl | rfl
    · rw [scan_of_next rfl, trimEnd_cons_of_stays rfl]
      exact ⟨_, _, rfl, .inl rfl⟩
    · rw [scan_of_next rfl, trimEnd_cons_of_stays rfl]
      exact ⟨_, _, rfl, .inr rfl⟩

/-- A data item that other items follow can be listed before them. -/
theorem exists_lists_datum {s : String} (takes : Takes mode c cs (.datum s) m left)
    (inner : left ≠ []) (joins : Joins (trimEnd (scan m left) ++ [.endOfLine]) ts)
    (lists : Lists m left ts us rest vs) :
    ∃ us rest vs, Lists mode (c :: cs) (.datum s :: ts) us rest vs := by
  have full : us ≠ [] := by
    rintro rfl
    obtain ⟨u, W, scanned, stop⟩ := exists_stop takes inner rfl
    rw [scanned, lists.split] at joins
    have head : ∃ t ts,
        rest ++ [.endOfLine] = t :: ts ∧ parts t = [t] ∧ t ≠ .comma ∧ t ≠ .colon := by
      cases lists.idle <;> exact ⟨_, _, rfl, rfl, by simp, by simp⟩
    obtain ⟨t, ts, same, whole, noComma, noColon⟩ := head
    rw [List.nil_append, same] at joins
    obtain ⟨W', same', -⟩ := joins.of_whole whole
    obtain ⟨rfl, -⟩ := List.cons.inj same'
    exact stop.elim noComma noColon
  have trim := lists.trimEnd_ne_nil full
  refine ⟨_, _, _, lists.cons_whole rfl (by simp) (trimEnd_cons_of_ne_nil trim) ?_⟩
  refine .token takes rfl (fun _ _ => ⟨inner, ?_⟩) lists.rescans
  rintro rfl
  exact trim rfl

/-- A remark or a data item that ends its line is shown without the blanks at its end, or not at
all. -/
theorem exists_lists_last {x : List Char} (shown : t.text.toList = x) (whole : parts t = [t])
    (inner : t ≠ .endOfLine) (trim : trimEnd [t] = [t])
    (empty : x = [] → Idle [t] ∧ Rescans mode cs []) (full : x ≠ [] → Rescans mode cs [t]) :
    ∃ us rest vs, Lists mode cs [t, .endOfLine] us rest vs := by
  by_cases blank : x = []
  · obtain ⟨idle, nothing⟩ := empty blank
    exact ⟨_, _, _, lists_endOfLine idle (by simp [shown, blank]) nothing⟩
  · have base : Lists .remark [] [.endOfLine] [] [] [] :=
      lists_endOfLine .nil rfl (.nothing (.inl (by simp)))
    exact ⟨_, _, _, base.cons_whole whole inner trim (full blank)⟩

/-- The end of a line is joined with nothing. -/
theorem Joins.endOfLine (joins : Joins [.endOfLine] ts) : ts = [.endOfLine] := by
  cases joins with
  | keep _ _ _ more =>
    cases more
    rfl

/-- Wherever the tokens `W` are scanned and joined to the line `ts`, that line is scanned again from
its text, but for an idle end. -/
def Listable (W ts : List Token) : Prop :=
  ∀ mode cs, trimEnd (scan mode cs) ++ [.endOfLine] = W →
    ∃ us rest vs, Lists mode cs ts us rest vs

/-- A line stays listable with a token in front that is not joined with others. -/
theorem Listable.keep (known : ∀ s, t ≠ .unknown s) (joins : Joins W ts) (more : Listable W ts) :
    Listable (t :: W) (t :: ts) := by
  intro mode cs scanned
  have trimmed := trimmed_scan mode cs
  generalize trimEnd (scan mode cs) = all at scanned trimmed
  cases trimmed with
  | nothing gaps =>
    cases scanned
    cases joins
    exact ⟨_, _, _, lists_endOfLine .nil rfl (.nothing (.inr gaps))⟩
  | @token _ m c cs left t takes plain inner =>
    obtain ⟨rfl, rfl⟩ := List.cons.inj scanned
    obtain ⟨us, rest, vs, lists⟩ := more m left rfl
    cases t with
    | unknown s => exact absurd rfl (known s)
    | remark s => exact absurd rfl (plain s)
    | endOfLine => exact (takes_ne_endOfLine takes).elim
    | blank w => exact exists_lists_blank takes lists
    | datum s => exact exists_lists_datum takes (inner s rfl) joins lists
    | _ =>
      refine ⟨_, _, _, lists.cons_whole (parts_of_takes takes) (by simp) ?_ ?_⟩
      · exact trimEnd_cons_of_stays rfl
      · exact .token takes rfl (by simp) lists.rescans
  | @remark c cs =>
    cases scanned
    rw [joins.endOfLine]
    refine exists_lists_last String.toList_ofList rfl (by simp) ?_ (fun empty => ?_) .remark
    · rw [trimEnd_remark, trimEnd_trimEnd]
    · rw [empty]
      exact ⟨.remark, .nothing (.inl (by simp))⟩
  | @datum c cs solid plain items =>
    cases scanned
    rw [joins.endOfLine]
    refine exists_lists_last String.toList_ofList rfl (by simp) ?_ (fun empty => ?_)
      (.datum solid plain items)
    · rw [trimEnd_datum, trimEnd_trimEnd]
    · rw [empty]
      exact ⟨.datum, .nothing (.inl (by simp))⟩

/-- A line stays listable with a word in front that is joined with `GO`. -/
theorem Listable.go {a b c : Token} (spelled : goWord? a b c = some t) (more : Listable W ts) :
    Listable (a :: b :: c :: W) (t :: ts) := by
  intro mode cs scanned
  obtain ⟨rfl, ⟨w, rfl⟩, second⟩ := goWord?_eq_some spelled
  have split : parts t = [.name (.plain "GO"), .blank 1, c] ∧ t ≠ .endOfLine := by
    rcases second with ⟨rfl, rfl⟩ | ⟨rfl, rfl⟩ <;> exact ⟨rfl, by simp⟩
  have second : Lexeme.fixes c = true ∧ c.isFirm = true ∧ c.stays = true ∧ ∀ s, c ≠ .datum s := by
    rcases second with ⟨rfl, -⟩ | ⟨rfl, -⟩ <;> exact ⟨rfl, rfl, rfl, by simp⟩
  obtain ⟨fixes, firm, stays, plain⟩ := second
  obtain ⟨d, ds, m, left, rfl, takes, scanned₁⟩ := exists_takes scanned rfl
  obtain ⟨d₁, ds₁, m₁, left₁, rfl, takes₁, scanned₂⟩ := exists_takes scanned₁ rfl
  obtain ⟨d₂, ds₂, m₂, left₂, same, takes₂, scanned₃⟩ := exists_takes scanned₂ fixes
  obtain ⟨other, gap, rfl, rfl, -⟩ := takes_blank takes₁
  obtain ⟨us, rest, vs, lists⟩ := more m₂ left₂ scanned₃
  refine ⟨_, _, _, lists.cons split.2 ?_ ?_⟩
  · have last : trimEnd (c :: vs) = c :: trimEnd vs := trimEnd_cons_of_stays stays
    have middle : trimEnd (.blank 1 :: c :: vs) = .blank 1 :: c :: trimEnd vs := by
      rw [trimEnd_cons_of_ne_nil (by simp [last]), last]
    rw [split.1]
    exact (trimEnd_cons_of_stays rfl).trans (congrArg _ middle)
  · rw [split.1]
    refine .token takes rfl (by simp) (.blank other gap Nat.one_pos ?_)
    rw [same]
    exact .token takes₂ firm (fun s h => absurd h (plain s)) lists.rescans

/-- A line stays listable with a relation in front that is joined from two signs. -/
theorem Listable.signs {a b : Token} (spelled : relation? a b = some t) (more : Listable W ts) :
    Listable (a :: b :: W) (t :: ts) := by
  intro mode cs scanned
  obtain ⟨x, y, x', y', rfl, rfl, first, second, first', second', split, -⟩ :=
    relation?_eq_some spelled
  obtain ⟨d, ds, m, left, rfl, takes, scanned₁⟩ := exists_takes scanned rfl
  obtain ⟨d₁, ds₁, m₁, left₁, rfl, takes₁, scanned₂⟩ := exists_takes scanned₁ rfl
  obtain ⟨rfl, rfl, same, sign⟩ := takes_sign takes first
  obtain ⟨-, rfl, rfl, -⟩ := takes_sign takes₁ second
  obtain ⟨us, rest, vs, lists⟩ := more _ _ scanned₂
  refine ⟨_, _, _, lists.cons ?_ ?_ ?_⟩
  · rintro rfl
    cases split
  · rw [split]
    exact (trimEnd_cons_of_stays rfl).trans (congrArg _ (trimEnd_cons_of_stays rfl))
  · rw [split, ← same]
    exact .signs sign first' second' lists.rescans

end Lists

/-- Every line without unknown characters is scanned again from its text, but for an idle end. -/
theorem listable_of_joins {W ts : List Token} (joins : Joins W ts)
    (known : ∀ s, .unknown s ∉ ts) : Listable W ts := by
  induction joins with
  | nil =>
    intro mode cs scanned
    simp at scanned
  | go spelled more ih =>
    exact .go spelled (ih fun s member => known s (List.mem_cons_of_mem _ member))
  | signs spelled more ih =>
    exact .signs spelled (ih fun s member => known s (List.mem_cons_of_mem _ member))
  | @keep a ts us whole noGo noSigns more ih =>
    have first : ∀ s, a ≠ .unknown s := by
      rintro s rfl
      exact known s List.mem_cons_self
    exact .keep first more (ih fun s member => known s (List.mem_cons_of_mem _ member))

end Token

end NumberedBasic
