import Mathlib.Data.List.DropRight
import NumberedBasic.Proofs.Rescanning

/-!
# Scanning the text of a listing

`Rescans` relates the text of a line as it was entered to the tokens that its listing shows, one
token after another. Whatever the listing has changed, its text looks to the scanner like the text
that was entered, so these tokens are scanned from it again (`Rescans.echoes_and_scan`), and no line
end is cut off it (`Rescans.closed`). How blanks at the end of a line are dropped is put in terms of
the first token (`trimEnd_cons_of_stays`, `trimEnd_cons_of_ne_nil`), since that is how a line is
scanned.
-/

set_option autoImplicit false

namespace NumberedBasic

/-- The relations that are written with one sign. -/
def BinaryOp.isSign : BinaryOp → Bool
  | .less | .equal | .greater => true
  | _ => false

namespace Token

/-! ## Blanks at the end -/

/-- The tokens without a blank token at their end. -/
def dropBlank (ts : List Token) : List Token :=
  match ts.getLast? with
  | some (.blank _) => ts.dropLast
  | _ => ts

/-- The tokens without the blanks of a last remark or data item. -/
def tidy (ts : List Token) : List Token :=
  match ts.getLast? with
  | some (.remark s) => ts.dropLast ++ [.remark (String.ofList (Text.trimEnd s.toList))]
  | some (.datum s) => ts.dropLast ++ [.datum (String.ofList (Text.trimEnd s.toList))]
  | _ => ts

/-- Blanks are taken off the end of a line in two steps: the blank token first, then those of a
remark or data item. -/
theorem trimEnd_eq (ts : List Token) : trimEnd ts = tidy (dropBlank ts) := rfl

section Trim

variable {t : Token} {ts : List Token}

/-- A token that others follow is kept when a blank at the end is dropped. -/
theorem dropBlank_cons (full : ts ≠ []) : dropBlank (t :: ts) = t :: dropBlank ts := by
  obtain ⟨u, us, rfl⟩ := List.exists_cons_of_ne_nil full
  unfold dropBlank
  rw [List.getLast?_cons_cons, List.dropLast_cons_cons]
  split <;> rfl

/-- A token that others follow is kept when the end is tidied. -/
theorem tidy_cons (full : ts ≠ []) : tidy (t :: ts) = t :: tidy ts := by
  obtain ⟨u, us, rfl⟩ := List.exists_cons_of_ne_nil full
  unfold tidy
  rw [List.getLast?_cons_cons, List.dropLast_cons_cons]
  split <;> rfl

/-- Tidying removes no token. -/
theorem tidy_eq_nil (h : tidy ts = []) : ts = [] := by
  unfold tidy at h
  split at h
  · simp at h
  · simp at h
  · exact h

/-- Only a blank alone is dropped entirely. -/
theorem dropBlank_eq_nil (h : dropBlank ts = []) : ts = [] ∨ ∃ w, ts = [.blank w] := by
  match ts with
  | [] => exact .inl rfl
  | [t] =>
    cases t with
    | blank w => exact .inr ⟨w, rfl⟩
    | _ => cases h
  | t :: u :: us =>
    rw [dropBlank_cons (by simp)] at h
    cases h

/-- Nothing but a blank is taken off entirely. -/
theorem trimEnd_eq_nil (h : trimEnd ts = []) : ts = [] ∨ ∃ w, ts = [.blank w] :=
  dropBlank_eq_nil (tidy_eq_nil h)

/-- A token is kept if something is left of those after it. -/
theorem trimEnd_cons_of_ne_nil (full : trimEnd ts ≠ []) : trimEnd (t :: ts) = t :: trimEnd ts := by
  have left : dropBlank ts ≠ [] := by
    intro empty
    rw [trimEnd_eq, empty] at full
    exact full rfl
  have some : ts ≠ [] := by
    rintro rfl
    exact left rfl
  rw [trimEnd_eq, dropBlank_cons some, tidy_cons left, trimEnd_eq]

/-- The tokens that stay as they are at the end of a line. -/
def stays : Token → Bool
  | .blank _ | .remark _ | .datum _ => false
  | _ => true

/-- A token that stays at the end of a line is kept whatever follows it. -/
theorem trimEnd_cons_of_stays (stay : t.stays = true) : trimEnd (t :: ts) = t :: trimEnd ts := by
  by_cases full : trimEnd ts = []
  · rcases trimEnd_eq_nil full with rfl | ⟨w, rfl⟩
    · cases t <;> first | rfl | cases stay
    · cases t <;> first | rfl | cases stay
  · exact trimEnd_cons_of_ne_nil full

/-- A last remark is shortened by its blanks. -/
theorem trimEnd_remark (cs : List Char) :
    trimEnd [.remark (String.ofList cs)] = [.remark (String.ofList (Text.trimEnd cs))] := by
  simp [trimEnd_eq, dropBlank, tidy]

/-- A last data item is shortened by its blanks. -/
theorem trimEnd_datum (cs : List Char) :
    trimEnd [.datum (String.ofList cs)] = [.datum (String.ofList (Text.trimEnd cs))] := by
  simp [trimEnd_eq, dropBlank, tidy]

/-- Blanks are taken off the end of a text once and for all. -/
theorem trimEnd_trimEnd (cs : List Char) : Text.trimEnd (Text.trimEnd cs) = Text.trimEnd cs :=
  List.rdropWhile_idempotent _ _

end Trim

/-! ## A line that is scanned again -/

/-- The text of some tokens in a listing. -/
def listed (ts : List Token) : List Char :=
  ts.flatMap fun t => t.text.toList

/-- An empty list of tokens has an empty text. -/
@[simp] theorem listed_nil : listed [] = [] := rfl

/-- The text of tokens starts with that of the first one. -/
@[simp] theorem listed_cons (t : Token) (ts : List Token) :
    listed (t :: ts) = t.text.toList ++ listed ts := rfl

/-- A listed line beside the text it was entered as. Blanks may have changed their width, and two
signs of a relation may have been exchanged. Blanks at the end are gone, those of a last remark or
data item included. -/
inductive Rescans : Mode → List Char → List Token → Prop
  | nothing {mode : Mode} {cs : List Char}
    (idle : mode ≠ .statements ∨ ∀ c ∈ cs, isGap c = true) : Rescans mode cs []
  | token {mode m : Mode} {c : Char} {cs rest : List Char} {t : Token} {ts : List Token}
    (takes : Takes mode c cs t m rest) (firm : t.isFirm = true)
    (inner : ∀ s, t = .datum s → rest ≠ [] ∧ ts ≠ []) (more : Rescans m rest ts) :
    Rescans mode (c :: cs) (t :: ts)
  | blank {mode : Mode} {c : Char} {cs : List Char} {w : Nat} {ts : List Token}
    (other : mode ≠ .remark) (gap : isGap c = true) (wide : 0 < w)
    (more : Rescans mode (cs.dropWhile isGap) ts) : Rescans mode (c :: cs) (.blank w :: ts)
  | signs {c d : Char} {cs : List Char} {x y : BinaryOp} {ts : List Token}
    (sign : kind c = .sign) (first : x.isSign = true) (second : y.isSign = true)
    (more : Rescans .statements cs ts) :
    Rescans .statements (c :: d :: cs) (.operator (.binary x) :: .operator (.binary y) :: ts)
  | remark {c : Char} {cs : List Char} (full : Text.trimEnd (c :: cs) ≠ []) :
    Rescans .remark (c :: cs) [.remark (String.ofList (Text.trimEnd (c :: cs)))]
  | datum {c : Char} {cs : List Char} (solid : isGap c = false) (plain : c ≠ '"')
    (items : ∀ d ∈ c :: cs, isItem d = true) (full : Text.trimEnd (c :: cs) ≠ []) :
    Rescans .data (c :: cs) [.datum (String.ofList (Text.trimEnd (c :: cs)))]

/-- If taking blanks off the end leaves something, it leaves the first character, and no characters
that were not there. -/
theorem exists_trimEnd_eq_cons {c : Char} {cs : List Char} (full : Text.trimEnd (c :: cs) ≠ []) :
    ∃ ds, Text.trimEnd (c :: cs) = c :: ds ∧ ∀ d ∈ ds, d ∈ cs := by
  have front : Text.trimEnd (c :: cs) <+: c :: cs := List.rdropWhile_prefix Text.isBlank _
  obtain ⟨d, ds, trimmed⟩ := List.exists_cons_of_ne_nil full
  rw [trimmed] at front ⊢
  obtain ⟨rfl, later⟩ := List.cons_prefix_cons.mp front
  exact ⟨ds, rfl, fun _ member => later.subset member⟩

/-- A relation of one sign is scanned as itself, whatever follows it. -/
theorem scan_sign {x : BinaryOp} (sign : x.isSign = true) :
    ∃ c, x.text.toList = [c] ∧ kind c = .sign ∧
      ∀ us, scan .statements (c :: us) = .operator (.binary x) :: scan .statements us := by
  cases x with
  | equal => exact ⟨'=', rfl, rfl, fun us => scan_symbol rfl (by decide) rfl rfl rfl⟩
  | less => exact ⟨'<', rfl, rfl, fun us => scan_symbol rfl (by decide) rfl rfl rfl⟩
  | greater => exact ⟨'>', rfl, rfl, fun us => scan_symbol rfl (by decide) rfl rfl rfl⟩
  | _ => cases sign

/-- Blanks and signs of relations are no letters, and no signs of numbers. -/
theorem plain_of_kind {c : Char} (h : kind c = .gap ∨ kind c = .sign) :
    c.isAlpha = false ∧ (c == '+' || c == '-') = false := by
  constructor
  · rw [Bool.eq_false_iff, ne_eq, isAlpha_iff]
    rcases h with h | h <;> simp [h]
  · rw [Bool.eq_false_iff, ne_eq, Bool.or_eq_true, beq_iff_eq, beq_iff_eq]
    rintro (rfl | rfl) <;> rcases h with h | h <;> cases h

/-- An empty text echoes one of which nothing is read. -/
theorem Echoes.nil {mode : Mode} {cs : List Char}
    (idle : mode ≠ .statements ∨ ∀ c ∈ cs, isGap c = true) : Echoes mode cs [] := by
  rcases idle with other | gaps
  · exact .of_mode other (.inr rfl)
  · cases cs with
    | nil => exact ⟨.inl rfl, fun _ => rfl, fun _ => rfl⟩
    | cons c cs =>
      have gap := (isGap_iff c).mp (gaps c List.mem_cons_self)
      obtain ⟨plain, unsigned⟩ := plain_of_kind (.inl gap)
      refine ⟨.inl gap.symm, fun _ => ?_, fun _ => ?_⟩
      · rw [exponentAhead_of_not_alpha plain, exponentAhead]
      · rw [signedAhead_of_unsigned unsigned, signedAhead]

/-- Nothing is scanned again from an empty line. -/
theorem Rescans.nil {mode : Mode} {ts : List Token} (rescans : Rescans mode [] ts) : ts = [] := by
  cases rescans
  rfl

/-- The listed text echoes the one that was entered, and it is scanned as the tokens that are
listed. -/
theorem Rescans.echoes_and_scan {mode : Mode} {cs : List Char} {ts : List Token}
    (rescans : Rescans mode cs ts) :
    Echoes mode cs (listed ts) ∧ scan mode (listed ts) = ts := by
  induction rescans with
  | nothing idle => exact ⟨.nil idle, scan.eq_1 _⟩
  | token takes firm inner more ih =>
    obtain ⟨echoes, again⟩ := ih
    have recurs := recurs_of_takes takes firm (fun s h => (inner s h).1) echoes
    exact ⟨recurs.echoes, by rw [listed_cons, recurs.scan_eq, again]⟩
  | @blank mode c cs w ts other gap wide more ih =>
    obtain ⟨echoes, again⟩ := ih
    -- The blanks are scanned again as one token only if the text behind them does not start with
    -- another blank. It echoes what stood behind the entered ones, and that does not.
    have stop : (listed ts).head?.any isGap = false := by
      have halt := any_head?_dropWhile isGap cs
      cases rest : cs.dropWhile isGap with
      | nil =>
        rw [rest] at more
        rw [more.nil]
        rfl
      | cons d ds =>
        rw [rest] at halt echoes
        cases shown : listed ts with
        | nil => rfl
        | cons u us =>
          rw [shown] at echoes
          have same : kind u = kind d := by simpa [lead] using echoes.start
          rwa [List.head?_cons, Option.any_some, isGap_eq_of_kind_eq same]
    have spaces : ∀ d ∈ List.replicate w ' ', isGap d = true := by
      intro d member
      rw [List.eq_of_mem_replicate member]
      rfl
    obtain ⟨taken, left⟩ := span_append spaces stop
    obtain ⟨n, rfl⟩ := Nat.exists_eq_add_one_of_ne_zero (Nat.ne_of_gt wide)
    have split : listed (.blank (n + 1) :: ts) = ' ' :: (List.replicate n ' ' ++ listed ts) := by
      simp [text, List.replicate_succ]
    rw [List.replicate_succ, List.cons_append] at taken left
    rw [split]
    refine ⟨.of_head ((isGap_iff c).mp gap).symm ?_ ?_, ?_⟩
    · exact (plain_of_kind (.inl ((isGap_iff c).mp gap))).1
    · exact (plain_of_kind (.inl ((isGap_iff c).mp gap))).2
    · rw [scan_of_next (next_of_gap other rfl), taken, left, again]
      simp
  | @signs c d cs x y ts sign first second more ih =>
    obtain ⟨a, spelled, same, scanned⟩ := scan_sign first
    obtain ⟨b, spelled', -, scanned'⟩ := scan_sign second
    have split : listed (.operator (.binary x) :: .operator (.binary y) :: ts) =
        a :: b :: listed ts := by
      simp [text, Operator.text, spelled, spelled']
    rw [split]
    refine ⟨.of_head (same.trans sign.symm) ?_ ?_, ?_⟩
    · exact (plain_of_kind (.inr sign)).1
    · exact (plain_of_kind (.inr sign)).2
    · rw [scanned, scanned', ih.2]
  | remark full =>
    obtain ⟨ds, trimmed, -⟩ := exists_trimEnd_eq_cons full
    rw [trimmed]
    refine ⟨.of_mode (by simp) (.inl ?_), ?_⟩
    · simp [text, lead]
    · simp [text, scan, next]
  | datum solid plain items full =>
    obtain ⟨ds, trimmed, inside⟩ := exists_trimEnd_eq_cons full
    rw [trimmed]
    have all : ∀ d ∈ ds, isItem d = true :=
      fun d member => items d (List.mem_cons_of_mem _ (inside d member))
    refine ⟨.of_mode (by simp) (.inl ?_), ?_⟩
    · simp [text, lead]
    · simp only [listed_cons, listed_nil, text, String.toList_ofList, List.append_nil]
      rw [scan_of_next (next_item solid plain (items _ List.mem_cons_self)),
        List.takeWhile_eq_self_iff.mpr all, List.dropWhile_eq_nil_iff.mpr all, scan]

/-- The text of some tokens that are scanned again is not empty. -/
theorem Rescans.listed_ne_nil {mode : Mode} {cs : List Char} {ts : List Token}
    (rescans : Rescans mode cs ts) (full : ts ≠ []) : listed ts ≠ [] := by
  intro empty
  have again := rescans.echoes_and_scan.2
  rw [empty, scan] at again
  exact full again.symm

/-! ## Line ends -/

/-- No line end closes the text. -/
def Closed (cs : List Char) : Prop :=
  ∀ c, cs.getLast? = some c → c ≠ '\r' ∧ c ≠ '\n'

/-- No line end is taken off a text that is closed by none. -/
theorem Closed.dropLineEnd {cs : List Char} (closed : Closed cs) : Text.dropLineEnd cs = cs := by
  apply List.rdropWhile_eq_self_iff.mpr
  intro full
  have last := closed _ (List.getLast?_eq_some_getLast full)
  simp [last.1, last.2]

/-- What closes the last part of a text closes all of it. -/
theorem Closed.append {cs us : List Char} (closed : Closed us) (full : us ≠ []) :
    Closed (cs ++ us) := by
  intro c last
  apply closed c
  rwa [List.getLast?_append_of_ne_nil _ full] at last

/-- A text without line ends is closed by none. -/
theorem closed_of_all {cs : List Char} (h : ∀ c ∈ cs, c ≠ '\r' ∧ c ≠ '\n') : Closed cs :=
  fun c last => h c (List.mem_of_getLast? last)

/-- A single character other than a line end is no line end. -/
theorem closed_singleton {c : Char} (h : c ≠ '\r' ∧ c ≠ '\n') : Closed [c] := by
  apply closed_of_all
  intro d member
  rwa [List.mem_singleton.mp member]

/-- Without blanks at its end, a text is closed by no line end. -/
theorem closed_trimEnd (cs : List Char) : Closed (Text.trimEnd cs) := by
  intro c last
  have full : Text.trimEnd cs ≠ [] := by
    intro empty
    rw [empty] at last
    cases last
  have solid : ¬Text.isBlank ((Text.trimEnd cs).getLast full) = true :=
    List.rdropWhile_last_not Text.isBlank cs full
  rw [List.getLast?_eq_some_getLast full, Option.some_inj] at last
  rw [last] at solid
  constructor <;> rintro rfl <;> revert solid <;> decide

/-- An exponent has digits, its letter and a sign. -/
theorem mem_takeExponent {cs : List Char} {d : Char} (member : d ∈ (takeExponent cs).1) :
    d.isDigit = true ∨ d ∈ ['E', '+', '-'] := by
  have digits : ∀ {ds : List Char}, d ∈ ds.takeWhile Char.isDigit → d.isDigit = true :=
    List.mem_takeWhile_imp
  unfold takeExponent at member
  split at member
  · next e c rest =>
    split at member
    · split at member
      · rcases List.mem_cons.mp member with rfl | later
        · exact .inr (by simp)
        · exact .inl (digits later)
      · split at member
        · next sign =>
          rcases List.mem_cons.mp member with rfl | later
          · exact .inr (by simp)
          · rcases List.mem_cons.mp later with rfl | later
            · right
              simp only [Bool.and_eq_true, Bool.or_eq_true, beq_iff_eq] at sign
              simp [sign.1]
            · exact .inl (digits later)
        · cases member
    · cases member
  · cases member

/-- A number has digits, a point, the letter of its exponent and a sign. -/
theorem mem_takeNumber {pointed : Bool} {cs : List Char} {d : Char}
    (member : d ∈ (takeNumber pointed cs).1) : d.isDigit = true ∨ d ∈ ['.', 'E', '+', '-'] := by
  induction cs generalizing pointed with
  | nil => cases member
  | cons c cs ih =>
    unfold takeNumber at member
    split at member
    · next digit =>
      rcases List.mem_cons.mp member with rfl | later
      · exact .inl digit
      · exact ih later
    · split at member
      · next point =>
        rcases List.mem_cons.mp member with rfl | later
        · right
          simp only [Bool.and_eq_true, beq_iff_eq] at point
          simp [point.1]
        · exact ih later
      · exact (mem_takeExponent member).imp_right (List.mem_cons_of_mem _)

/-- No line end closes the text of a firm token, a data item apart. -/
theorem closed_text {mode m : Mode} {c : Char} {cs rest : List Char} {t : Token}
    (takes : Takes mode c cs t m rest) (firm : t.isFirm = true) (outer : ∀ s, t ≠ .datum s) :
    Closed t.text.toList := by
  cases takes with
  | remark | gap | unknown => cases firm
  | datum => exact absurd rfl (outer _)
  | string other =>
    have quoted : Closed ['"'] := closed_singleton (by decide)
    rw [text, quote, String.toList_ofList]
    exact quoted.append (by simp)
  | comma => exact closed_singleton (c := ',') (by decide)
  | colon => exact closed_singleton (c := ':') (by decide)
  | number number =>
    apply closed_of_all
    intro d member
    rw [text, String.toList_ofList] at member
    have inside := mem_takeNumber member
    constructor <;> rintro rfl <;> revert inside <;> decide
  | name alpha taken =>
    obtain ⟨run, -, spelled, inside, -⟩ := takeName_again taken
    rw [spelled]
    apply closed_of_all
    intro d member
    obtain ⟨x, among, rfl⟩ := List.mem_map.mp member
    have same : kind x.toUpper = kind x := kind_toUpper x
    have part : x.isAlpha = true ∨ x.isDigit = true ∨ x = '$' := by
      rcases List.mem_cons.mp among with rfl | later
      · exact .inl alpha
      · exact inside x later
    rw [ne_eq, ne_eq, eq_iff_of_kind_eq same rfl, eq_iff_of_kind_eq same rfl]
    constructor <;> rintro rfl <;> revert part <;> decide
  | symbol solid plain number symbol spelled =>
    rw [(fixed_of_ofSpelling? spelled).2]
    apply closed_singleton
    constructor <;> rintro rfl <;> cases spelled

/-- No line end closes the text of tokens that are scanned again. -/
theorem Rescans.closed {mode : Mode} {cs : List Char} {ts : List Token}
    (rescans : Rescans mode cs ts) : Closed (listed ts) := by
  induction rescans with
  | nothing => rintro c ⟨⟩
  | @token _ _ _ _ _ t ts takes firm inner more ih =>
    by_cases full : ts = []
    · subst full
      have outer : ∀ s, t ≠ .datum s := fun s item => (inner s item).2 rfl
      simpa using closed_text takes firm outer
    · exact ih.append (more.listed_ne_nil full)
  | @blank _ _ _ w ts other gap wide more ih =>
    by_cases full : ts = []
    · subst full
      apply closed_of_all
      intro d member
      have space : d = ' ' := by
        simp [text] at member
        exact member.2
      rw [space]
      decide
    · exact ih.append (more.listed_ne_nil full)
  | @signs _ _ _ x y ts sign first second more ih =>
    rw [listed_cons, listed_cons, ← List.append_assoc]
    by_cases full : ts = []
    · subst full
      rw [listed_nil, List.append_nil]
      apply Closed.append
      · cases y with
        | equal => exact closed_singleton (c := '=') (by decide)
        | less => exact closed_singleton (c := '<') (by decide)
        | greater => exact closed_singleton (c := '>') (by decide)
        | _ => cases second
      · cases y <;> decide
    · exact ih.append (more.listed_ne_nil full)
  | remark full => simpa [text] using closed_trimEnd _
  | datum solid plain items full => simpa [text] using closed_trimEnd _

end Token

end NumberedBasic
