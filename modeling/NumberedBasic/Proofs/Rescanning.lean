import Mathlib.Data.List.TakeWhile
import NumberedBasic.Token.Scan

/-!
# Scanning a token again

The text that a listing shows for a token, scanned again, gives that token back, in whatever
spelling it was entered. Where a token ends depends on the characters after it: a name goes on with
a digit, a number with an exponent. So the statement is about a token together with a text behind
it, and that text only has to look like the one that stood there before (`Echoes`): it starts with a
character of the same `Kind`, and an exponent or a signed number is ahead in both or in neither.
`Takes` says what `next` can take off a text, and `recurs_of_takes` that each of these tokens comes
again.
-/

set_option autoImplicit false

namespace NumberedBasic.Token

/-! ## Characters -/

/-- What a character is to the scanner, apart from its case. The signs of relations are of one kind
because a listing may exchange them. -/
inductive Kind where
  | gap
  | letter
  | digit
  | sign
  | mark (c : Char)

/-- The kind of a character. -/
def kind (c : Char) : Kind :=
  if isGap c then .gap
  else if c.isAlpha then .letter
  else if c.isDigit then .digit
  else if c == '<' || c == '>' || c == '=' then .sign
  else .mark c

/-- The kind of the first character. The end of a text counts as a gap. -/
def lead : List Char → Kind
  | [] => .gap
  | c :: _ => kind c

/-- The gaps are of one kind. -/
theorem isGap_iff (c : Char) : isGap c = true ↔ kind c = .gap := by
  unfold kind
  split
  · simp [*]
  · repeat' split
    all_goals simp [*]

/-- A gap is no letter. -/
theorem isAlpha_of_isGap {c : Char} (h : isGap c = true) : c.isAlpha = false := by
  simp only [isGap, Bool.or_eq_true, beq_iff_eq] at h
  rcases h with rfl | rfl <;> rfl

/-- A gap is no digit. -/
theorem isDigit_of_isGap {c : Char} (h : isGap c = true) : c.isDigit = false := by
  simp only [isGap, Bool.or_eq_true, beq_iff_eq] at h
  rcases h with rfl | rfl <;> rfl

/-- The capitals are a range of codes. -/
theorem isUpper_iff_toNat (c : Char) : c.isUpper = true ↔ 65 ≤ c.toNat ∧ c.toNat ≤ 90 := by
  delta Char.isUpper
  simp [UInt32.le_iff_toNat_le, ← Char.toNat_val]

/-- The small letters are a range of codes. -/
theorem isLower_iff_toNat (c : Char) : c.isLower = true ↔ 97 ≤ c.toNat ∧ c.toNat ≤ 122 := by
  delta Char.isLower
  simp [UInt32.le_iff_toNat_le, ← Char.toNat_val]

/-- A letter is no digit. -/
theorem isDigit_of_isAlpha {c : Char} (h : c.isAlpha = true) : c.isDigit = false := by
  have nine : '9'.toNat = 57 := rfl
  have letter : c.isUpper = true ∨ c.isLower = true := Bool.or_eq_true_iff.mp h
  rw [isUpper_iff_toNat, isLower_iff_toNat] at letter
  rw [Bool.eq_false_iff, ne_eq, Char.isDigit_iff_toNat]
  omega

/-- The letters are of one kind. -/
theorem isAlpha_iff (c : Char) : c.isAlpha = true ↔ kind c = .letter := by
  unfold kind
  split
  · next gap => simp [isAlpha_of_isGap gap]
  · repeat' split
    all_goals simp [*]

/-- The digits are of one kind. -/
theorem isDigit_iff (c : Char) : c.isDigit = true ↔ kind c = .digit := by
  unfold kind
  split
  · next gap => simp [isDigit_of_isGap gap]
  · split
    · next alpha => simp [isDigit_of_isAlpha alpha]
    · repeat' split
      all_goals simp [*]

/-- Each mark is of a kind of its own. -/
theorem eq_of_kind_eq_mark {c d : Char} (h : kind c = .mark d) : c = d := by
  unfold kind at h
  repeat' split at h
  all_goals cases h
  rfl

/-- Characters of one kind are told apart by none of the marks. -/
theorem eq_iff_of_kind_eq {c d x : Char} (same : kind c = kind d) (mark : kind x = .mark x) :
    c = x ↔ d = x := by
  constructor
  · rintro rfl
    exact eq_of_kind_eq_mark (same.symm.trans mark)
  · rintro rfl
    exact eq_of_kind_eq_mark (same.trans mark)

/-- A small letter and its capital are 32 codes apart. -/
theorem toNat_toUpper {c : Char} (h : c.isLower = true) : c.toUpper.toNat + 32 = c.toNat := by
  have bounds : 'a'.val ≤ c.val ∧ c.val ≤ 'z'.val := by
    delta Char.isLower at h
    simpa using h
  have down : ('A'.val - 'a'.val).toNat = 4294967264 := rfl
  rw [isLower_iff_toNat] at h
  delta Char.toUpper
  rw [dif_pos bounds, ← Char.toNat_val, UInt32.toNat_add, down, Char.toNat_val]
  omega

/-- The capital of a small letter is a capital. -/
theorem isUpper_toUpper {c : Char} (h : c.isLower = true) : c.toUpper.isUpper = true := by
  have shift := toNat_toUpper h
  rw [isLower_iff_toNat] at h
  rw [isUpper_iff_toNat]
  omega

/-- What is no small letter is its own capital. -/
theorem toUpper_of_isLower_eq_false {c : Char} (h : c.isLower = false) : c.toUpper = c := by
  delta Char.toUpper
  rw [dif_neg]
  intro bounds
  have lower : c.isLower = true := by
    delta Char.isLower
    simpa using bounds
  rw [h] at lower
  cases lower

/-- A capital is no small letter. -/
theorem isLower_of_isUpper {c : Char} (h : c.isUpper = true) : c.isLower = false := by
  rw [isUpper_iff_toNat] at h
  rw [Bool.eq_false_iff, ne_eq, isLower_iff_toNat]
  omega

/-- A letter and its capital are of one kind. -/
@[simp] theorem kind_toUpper (c : Char) : kind c.toUpper = kind c := by
  cases lower : c.isLower with
  | false => rw [toUpper_of_isLower_eq_false lower]
  | true =>
    have before : c.isAlpha = true := Bool.or_eq_true_iff.mpr (.inr lower)
    have after : c.toUpper.isAlpha = true := Bool.or_eq_true_iff.mpr (.inl (isUpper_toUpper lower))
    rw [(isAlpha_iff _).mp before, (isAlpha_iff _).mp after]

/-- A capital is its own capital. -/
@[simp] theorem toUpper_toUpper (c : Char) : c.toUpper.toUpper = c.toUpper := by
  cases lower : c.isLower with
  | false => rw [toUpper_of_isLower_eq_false lower, toUpper_of_isLower_eq_false lower]
  | true => exact toUpper_of_isLower_eq_false (isLower_of_isUpper (isUpper_toUpper lower))

/-- The mark of an exponent is one in either case. -/
theorem isMark_toUpper (c : Char) :
    (c.toUpper == 'E' || c.toUpper == 'e') = (c == 'E' || c == 'e') := by
  cases lower : c.isLower with
  | false => rw [toUpper_of_isLower_eq_false lower]
  | true =>
    have shift := toNat_toUpper lower
    have bigE : 'E'.toNat = 69 := rfl
    have smallE : 'e'.toNat = 101 := rfl
    rw [isLower_iff_toNat] at lower
    rw [Bool.eq_iff_iff]
    simp only [Bool.or_eq_true, beq_iff_eq, ← Char.toNat_inj]
    omega

section Kinds

variable {c d : Char}

/-- Characters of one kind are all gaps or none is. -/
theorem isGap_eq_of_kind_eq (same : kind c = kind d) : isGap c = isGap d := by
  rw [Bool.eq_iff_iff, isGap_iff, isGap_iff, same]

/-- Characters of one kind are all letters or none is. -/
theorem isAlpha_eq_of_kind_eq (same : kind c = kind d) : c.isAlpha = d.isAlpha := by
  rw [Bool.eq_iff_iff, isAlpha_iff, isAlpha_iff, same]

/-- Characters of one kind are all digits or none is. -/
theorem isDigit_eq_of_kind_eq (same : kind c = kind d) : c.isDigit = d.isDigit := by
  rw [Bool.eq_iff_iff, isDigit_iff, isDigit_iff, same]

/-- Characters of one kind are all the same mark or none is. -/
theorem beq_eq_of_kind_eq {x : Char} (same : kind c = kind d) (mark : kind x = .mark x) :
    (c == x) = (d == x) := by
  rw [Bool.eq_iff_iff, beq_iff_eq, beq_iff_eq, eq_iff_of_kind_eq same mark]

/-- Characters of one kind may all stand in a data item or none may. -/
theorem isItem_eq_of_kind_eq (same : kind c = kind d) : isItem c = isItem d := by
  rw [isItem, isItem, bne, bne, bne, bne, beq_eq_of_kind_eq same rfl, beq_eq_of_kind_eq same rfl]

end Kinds

/-! ## Texts that look alike -/

/-- A digit is next. -/
def digitAhead (cs : List Char) : Bool :=
  cs.head?.any Char.isDigit

/-- A sign and a digit are next. -/
def signedAhead : List Char → Bool
  | c :: cs => (c == '+' || c == '-') && digitAhead cs
  | [] => false

/-- What is next would continue a number as its exponent. -/
def exponentAhead : List Char → Bool
  | c :: cs => (c == 'E' || c == 'e') && (digitAhead cs || signedAhead cs)
  | [] => false

/-- The text `us` can stand for `cs` after a token: it starts with a character of the same kind, and
in a statement an exponent or a signed number is ahead in both or in neither. A remark or data may
also be missing altogether. -/
structure Echoes (mode : Mode) (cs us : List Char) : Prop where
  start : lead us = lead cs ∨ mode ≠ .statements ∧ us = []
  exponent : mode = .statements → exponentAhead us = exponentAhead cs
  signed : mode = .statements → signedAhead us = signedAhead cs

/-- A digit is next exactly if the first character is of that kind. -/
theorem digitAhead_iff (cs : List Char) : digitAhead cs = true ↔ lead cs = .digit := by
  cases cs with
  | nil => simp [digitAhead, lead]
  | cons c cs => simpa [digitAhead, lead] using isDigit_iff c

section Echoes

variable {mode : Mode} {c d : Char} {cs us : List Char}

/-- In a statement, a text that echoes another one starts with a character of the same kind. -/
theorem Echoes.lead_eq (echoes : Echoes .statements cs us) : lead us = lead cs := by
  rcases echoes.start with same | ⟨other, -⟩
  · exact same
  · exact absurd rfl other

/-- In a statement, a digit is next in a text that echoes another one if it is in that one. -/
theorem Echoes.digitAhead_eq (echoes : Echoes .statements cs us) :
    digitAhead us = digitAhead cs := by
  rw [Bool.eq_iff_iff, digitAhead_iff, digitAhead_iff, echoes.lead_eq]

/-- Only a letter starts an exponent. -/
theorem exponentAhead_of_not_alpha (plain : c.isAlpha = false) :
    exponentAhead (c :: cs) = false := by
  have noMark : (c == 'E' || c == 'e') = false := by
    rw [Bool.or_eq_false_iff, beq_eq_false_iff_ne, beq_eq_false_iff_ne]
    constructor <;> rintro rfl <;> cases plain
  rw [exponentAhead, noMark, Bool.false_and]

/-- Only a sign starts a signed number. -/
theorem signedAhead_of_unsigned (unsigned : (c == '+' || c == '-') = false) :
    signedAhead (c :: cs) = false := by
  rw [signedAhead, unsigned, Bool.false_and]

/-- A first character that starts no exponent and is no sign tells nothing about what follows it. -/
theorem Echoes.of_head (same : kind d = kind c) (plain : c.isAlpha = false)
    (unsigned : (c == '+' || c == '-') = false) : Echoes mode (c :: cs) (d :: us) := by
  have plain' : d.isAlpha = false := (isAlpha_eq_of_kind_eq same).trans plain
  have unsigned' : (d == '+' || d == '-') = false := by
    rwa [beq_eq_of_kind_eq same rfl, beq_eq_of_kind_eq same rfl]
  refine ⟨.inl same, fun _ => ?_, fun _ => ?_⟩
  · rw [exponentAhead_of_not_alpha plain, exponentAhead_of_not_alpha plain']
  · rw [signedAhead_of_unsigned unsigned, signedAhead_of_unsigned unsigned']

/-- Outside of statements, a text that starts with the same kind of character echoes another one,
and so does an empty text. -/
theorem Echoes.of_mode (other : mode ≠ .statements) (same : lead us = lead cs ∨ us = []) :
    Echoes mode cs us :=
  ⟨same.imp_right fun empty => ⟨other, empty⟩, fun h => absurd h other, fun h => absurd h other⟩

end Echoes

/-- A run of characters that satisfy `p` ends where a text starts with another character. -/
theorem span_append {p : Char → Bool} {run us : List Char} (inside : ∀ c ∈ run, p c = true)
    (stop : us.head?.any p = false) :
    (run ++ us).takeWhile p = run ∧ (run ++ us).dropWhile p = us := by
  rw [List.takeWhile_append_of_pos inside, List.dropWhile_append_of_pos inside]
  cases us with
  | nil => simp
  | cons c us =>
    have outside : ¬p c = true := by simpa using stop
    simp [List.takeWhile_cons_of_neg outside, List.dropWhile_cons_of_neg outside]

/-- What is left does not start with what was dropped. -/
theorem any_head?_dropWhile (p : Char → Bool) (cs : List Char) :
    (cs.dropWhile p).head?.any p = false := by
  induction cs with
  | nil => rfl
  | cons c cs ih =>
    cases h : p c with
    | true => rwa [List.dropWhile_cons_of_pos h]
    | false =>
      rw [List.dropWhile_cons_of_neg (by simp [h])]
      exact h

/-! ## Numbers -/

/-- Where no exponent is ahead, none is taken. -/
theorem takeExponent_of_not_ahead {cs : List Char} (h : exponentAhead cs = false) :
    takeExponent cs = ([], cs) := by
  unfold takeExponent
  split
  · next e c rest =>
    simp only [exponentAhead, digitAhead, signedAhead, List.head?_cons, Option.any_some] at h
    split
    · next mark =>
      rw [mark, Bool.true_and, Bool.or_eq_false_iff] at h
      simp [h.1, h.2]
    · rfl
  · rfl

section Exponent

variable {e c d : Char} {rest : List Char}

/-- An exponent without a sign is its letter, put in capitals, and its digits. -/
theorem takeExponent_digits (mark : (e == 'E' || e == 'e') = true) (digit : d.isDigit = true) :
    takeExponent (e :: d :: rest) =
      ('E' :: d :: rest.takeWhile Char.isDigit, rest.dropWhile Char.isDigit) := by
  rw [takeExponent, if_pos mark, if_pos digit, List.takeWhile_cons_of_pos digit,
    List.dropWhile_cons_of_pos digit]

/-- An exponent with a sign is its letter, put in capitals, the sign and its digits. -/
theorem takeExponent_signed (mark : (e == 'E' || e == 'e') = true)
    (sign : (c == '+' || c == '-') = true) (digit : d.isDigit = true) :
    takeExponent (e :: c :: d :: rest) =
      ('E' :: c :: d :: rest.takeWhile Char.isDigit, rest.dropWhile Char.isDigit) := by
  have noDigit : ¬c.isDigit = true := by
    rw [Bool.or_eq_true, beq_iff_eq, beq_iff_eq] at sign
    rcases sign with rfl | rfl <;> decide
  have ahead : ((c == '+' || c == '-') && (d :: rest).head?.any Char.isDigit) = true := by
    rw [sign, List.head?_cons, Option.any_some, digit, Bool.and_self]
  rw [takeExponent, if_pos mark, if_neg noDigit, if_pos ahead, List.takeWhile_cons_of_pos digit,
    List.dropWhile_cons_of_pos digit]

end Exponent

/-- An exponent is read again from its text, which has the mark in upper case. -/
theorem takeExponent_again {cs : List Char} (ahead : exponentAhead cs = true) :
    ∃ ds rest, takeExponent cs = ('E' :: ds, rest) ∧ digitAhead rest = false ∧
      ∀ us, digitAhead us = false → takeExponent ('E' :: ds ++ us) = ('E' :: ds, us) := by
  have digits : ∀ ds : List Char, ∀ d ∈ ds.takeWhile Char.isDigit, d.isDigit = true :=
    fun _ _ => List.mem_takeWhile_imp
  match cs with
  | e :: cs =>
    obtain ⟨mark, ahead⟩ := Bool.and_eq_true_iff.mp ahead
    rcases Bool.or_eq_true_iff.mp ahead with digit | signed
    · match cs with
      | d :: rest =>
        refine ⟨_, _, takeExponent_digits mark digit, any_head?_dropWhile _ _, fun us stop => ?_⟩
        obtain ⟨taken, left⟩ := span_append (digits rest) stop
        simp only [List.cons_append]
        rw [takeExponent_digits rfl digit, taken, left]
    · match cs with
      | c :: d :: rest =>
        obtain ⟨sign, digit⟩ := Bool.and_eq_true_iff.mp signed
        refine ⟨_, _, takeExponent_signed mark sign digit, any_head?_dropWhile _ _,
          fun us stop => ?_⟩
        obtain ⟨taken, left⟩ := span_append (digits rest) stop
        simp only [List.cons_append]
        rw [takeExponent_signed rfl sign digit, taken, left]
      | [c] => simp [signedAhead, digitAhead] at signed

/-- A number stops where neither a digit nor a point nor an exponent is ahead. -/
theorem takeNumber_of_stop {pointed : Bool} {us : List Char} (digit : digitAhead us = false)
    (point : (us.head? == some '.' && !pointed) = false) (exponent : exponentAhead us = false) :
    takeNumber pointed us = ([], us) := by
  cases us with
  | nil => rfl
  | cons u us =>
    have noDigit : ¬u.isDigit = true := by simpa [digitAhead] using digit
    have noPoint : ¬(u == '.' && !pointed) = true := by simpa using point
    rw [takeNumber, if_neg noDigit, if_neg noPoint, takeExponent_of_not_ahead exponent]

/-- A number stops in a text that echoes one in which it stops. -/
theorem Echoes.takeNumber_eq {pointed : Bool} {cs us : List Char}
    (echoes : Echoes .statements cs us) (digit : digitAhead cs = false)
    (point : (cs.head? == some '.' && !pointed) = false) (exponent : exponentAhead cs = false) :
    takeNumber pointed us = ([], us) := by
  refine takeNumber_of_stop (echoes.digitAhead_eq.trans digit) ?_
    ((echoes.exponent rfl).trans exponent)
  match us, cs, echoes.lead_eq with
  | [], _, _ => rfl
  | u :: us, c :: cs, same =>
    have same : kind u = kind c := same
    simpa [eq_iff_of_kind_eq (x := '.') same rfl] using point
  | u :: us, [], same =>
    have noPoint : u ≠ '.' := by
      rintro rfl
      cases same
    simp [noPoint]

/-- A number is taken again from its text, if what follows echoes what followed it. -/
theorem takeNumber_again {pointed : Bool} {cs s rest us : List Char}
    (taken : takeNumber pointed cs = (s, rest)) (echoes : Echoes .statements rest us) :
    takeNumber pointed (s ++ us) = (s, us) := by
  induction cs generalizing pointed s with
  | nil =>
    cases taken
    exact echoes.takeNumber_eq rfl rfl rfl
  | cons c cs ih =>
    unfold takeNumber at taken
    split at taken
    · next digit =>
      cases taken
      simp only [List.cons_append]
      rw [takeNumber, if_pos digit, ih rfl]
    · next digit =>
      split at taken
      · next point =>
        cases taken
        simp only [List.cons_append]
        rw [takeNumber, if_neg digit, if_pos point, ih rfl]
      · next point =>
        cases ahead : exponentAhead (c :: cs) with
        | false =>
          rw [takeExponent_of_not_ahead ahead] at taken
          cases taken
          have noDigit : digitAhead (c :: cs) = false := by simpa [digitAhead] using digit
          exact echoes.takeNumber_eq noDigit (by simpa using point) ahead
        | true =>
          obtain ⟨ds, left, found, stop, again⟩ := takeExponent_again ahead
          rw [found] at taken
          cases taken
          exact again us (echoes.digitAhead_eq.trans stop)

/-! ## Strings -/

/-- What is left after a string does not start with a quote. -/
theorem head?_takeString (cs : List Char) : (takeString cs).2.head? ≠ some '"' := by
  fun_induction takeString cs with
  | case1 => simp
  | case2 cs s rest h ih => rwa [h] at ih
  | case3 c cs notTwo quote =>
    intro again
    cases cs with
    | nil => cases again
    | cons d cs =>
      cases again
      exact notTwo cs (beq_iff_eq.mp quote) rfl
  | case4 c cs _ _ s rest h ih => rwa [h] at ih

/-- The text of a string gives the string back, whatever follows, unless that is a quote. -/
theorem takeString_quoted (s : List Char) {us : List Char} (stop : us.head? ≠ some '"') :
    takeString ((s.flatMap fun c => if c == '"' then ['"', '"'] else [c]) ++ '"' :: us) =
      (s, us) := by
  induction s with
  | nil =>
    cases us with
    | nil => rfl
    | cons u us =>
      have other : u ≠ '"' := by simpa using stop
      simp [takeString, other]
  | cons c s ih =>
    by_cases quote : c = '"'
    · subst quote
      simp [takeString] at ih ⊢
      simp [ih]
    · simp [takeString, quote] at ih ⊢
      simp [ih]

/-! ## Names and symbols -/

/-- What a spelling stands for is one of the fixed tokens, and has the spelling for its text. -/
theorem fixed_of_ofSpelling? {cs : List Char} {t : Token} (h : ofSpelling? cs = some t) :
    t ∈ fixed ∧ t.text.toList = cs := by
  obtain ⟨before, after, split, -⟩ := List.lookup_eq_some_iff.mp h
  have listed : (cs, t) ∈ spellings := by simp [split]
  obtain ⟨u, member, same⟩ := List.mem_map.mp listed
  cases same
  exact ⟨member, rfl⟩

/-- A name goes on with a character of this kind; `digit` says whether it holds a digit already. -/
def goesOn (digit : Bool) : Kind → Bool
  | .letter => !digit
  | .digit => true
  | .mark c => c == '$'
  | .gap | .sign => false

/-- Whether a name goes on with a character is a matter of its kind. -/
theorem goesOn_kind (digit : Bool) (c : Char) :
    ((c.isAlpha && !digit) || c.isDigit || c == '$') = goesOn digit (kind c) := by
  have dollar : c = '$' ↔ kind c = .mark '$' := by
    constructor
    · rintro rfl
      rfl
    · exact eq_of_kind_eq_mark
  rw [Bool.eq_iff_iff]
  simp only [Bool.or_eq_true, Bool.and_eq_true, beq_iff_eq, isAlpha_iff, isDigit_iff, dollar]
  cases kind c <;> simp [goesOn]

section Name

variable {seen : List Char} {digit : Bool} {c d : Char} {cs us : List Char} {t : Token}

/-- A word that is spelled out is taken, whatever follows it. -/
theorem takeName_of_spelled (spelled : ofSpelling? (seen ++ [c.toUpper]) = some t) :
    takeName seen digit c cs = (t, cs) := by
  unfold takeName
  simp only [spelled]

/-- A name with the tag that its last character gives it. -/
def tagged (c : Char) (seen : List Char) : Ident :=
  if c == '$' then .text (String.ofList seen) else .plain (String.ofList seen)

/-- A name that does not go on is taken with its tag. -/
theorem takeName_of_stop (unspelled : ofSpelling? (seen ++ [c.toUpper]) = none)
    (stop : c = '$' ∨ goesOn (digit || c.isDigit) (lead cs) = false) :
    takeName seen digit c cs = (.name (tagged c (seen ++ [c.toUpper])), cs) := by
  unfold takeName tagged
  simp only [unspelled, goesOn_kind]
  split
  · rfl
  · next other =>
    cases cs with
    | nil => rfl
    | cons d cs =>
      have halt : goesOn (digit || c.isDigit) (kind d) = false := by
        simpa [lead, beq_iff_eq.not.mp other] using stop
      simp [halt]

/-- A name that goes on is taken from the next character on. -/
theorem takeName_of_goesOn (unspelled : ofSpelling? (seen ++ [c.toUpper]) = none) (plain : c ≠ '$')
    (more : goesOn (digit || c.isDigit) (kind d) = true) :
    takeName seen digit c (d :: cs) = takeName (seen ++ [c.toUpper]) (digit || c.isDigit) d cs := by
  rw [takeName]
  simp only [unspelled, goesOn_kind, more]
  simp [plain]

/-- A name that does not go on with a text does not with one that echoes it. -/
theorem goesOn_lead_eq_false (echo : lead us = lead cs ∨ us = [])
    (stop : goesOn digit (lead cs) = false) : goesOn digit (lead us) = false := by
  rcases echo with same | rfl
  · rwa [same]
  · rfl

/-- A name that did not go on is taken again before a text that echoes what followed it. -/
theorem takeName_of_stop_again (unspelled : ofSpelling? (seen ++ [c.toUpper]) = none)
    (stop : c = '$' ∨ goesOn (digit || c.isDigit) (lead cs) = false)
    (echo : lead us = lead cs ∨ us = []) :
    takeName seen digit c.toUpper us = (.name (tagged c (seen ++ [c.toUpper])), us) := by
  have same : kind c.toUpper = kind c := kind_toUpper c
  have tag : tagged c.toUpper = tagged c := by
    have dollar : (c.toUpper == '$') = (c == '$') := by
      rw [Bool.eq_iff_iff, beq_iff_eq, beq_iff_eq, eq_iff_of_kind_eq same rfl]
    funext seen
    rw [tagged, tagged, dollar]
  have stop' : c.toUpper = '$' ∨ goesOn (digit || c.toUpper.isDigit) (lead us) = false := by
    rw [eq_iff_of_kind_eq same rfl, isDigit_eq_of_kind_eq same]
    exact stop.imp_right (goesOn_lead_eq_false echo)
  rw [takeName_of_stop (by rwa [toUpper_toUpper]) stop', toUpper_toUpper, tag]

/-- A name or keyword is read again from its letters in upper case. -/
theorem takeName_again {rest : List Char} (taken : takeName seen digit c cs = (t, rest)) :
    ∃ run, cs = run ++ rest ∧ t.text.toList = seen ++ (c :: run).map Char.toUpper ∧
      (∀ d ∈ run, d.isAlpha = true ∨ d.isDigit = true ∨ d = '$') ∧
      ∀ us, lead us = lead rest ∨ us = [] →
        takeName seen digit c.toUpper (run.map Char.toUpper ++ us) = (t, us) := by
  -- A name is taken one character at a time. In capitals it takes the same turn at each of them,
  -- because capitals are of the same kind and spell the same words.
  fun_induction takeName seen digit c cs with
  | case1 cs seen digit c read u spelled =>
    cases taken
    refine ⟨[], rfl, (fixed_of_ofSpelling? spelled).2, by simp, fun us _ => ?_⟩
    exact takeName_of_spelled (by rwa [toUpper_toUpper])
  | case2 cs seen digit c read unspelled dollar =>
    cases taken
    refine ⟨[], rfl, String.toList_ofList, by simp, fun us echo => ?_⟩
    have again : takeName seen digit c.toUpper us = _ :=
      takeName_of_stop_again unspelled (.inl (beq_iff_eq.mp dollar)) echo
    rwa [tagged, if_pos dollar] at again
  | case3 seen digit c read unspelled plain =>
    cases taken
    refine ⟨[], rfl, String.toList_ofList, by simp, fun us echo => ?_⟩
    have again : takeName seen digit c.toUpper us = _ :=
      takeName_of_stop_again unspelled (.inr rfl) echo
    rwa [tagged, if_neg plain] at again
  | case4 seen digit c read digits unspelled plain d cs more ih =>
    obtain ⟨run, rfl, listed, inside, again⟩ := ih taken
    have same : kind c.toUpper = kind c := kind_toUpper c
    refine ⟨d :: run, rfl, by simp [listed, read], ?_, fun us echo => ?_⟩
    · intro x member
      rcases List.mem_cons.mp member with rfl | later
      · simp only [Bool.or_eq_true, Bool.and_eq_true, beq_iff_eq] at more
        rcases more with (⟨alpha, -⟩ | digit) | dollar
        · exact .inl alpha
        · exact .inr (.inl digit)
        · exact .inr (.inr dollar)
      · exact inside x later
    · rw [goesOn_kind] at more
      have plain' : c.toUpper ≠ '$' := by
        rwa [ne_eq, eq_iff_of_kind_eq same rfl, ← beq_iff_eq]
      rw [List.map_cons, List.cons_append, takeName_of_goesOn (by rwa [toUpper_toUpper]) plain'
        (by rwa [isDigit_eq_of_kind_eq same, kind_toUpper]), toUpper_toUpper,
        isDigit_eq_of_kind_eq same]
      exact again us echo
  | case5 seen digit c read digits unspelled plain d cs halt =>
    cases taken
    refine ⟨[], rfl, String.toList_ofList, by simp, fun us echo => ?_⟩
    have stop : goesOn (digit || c.isDigit) (lead (d :: cs)) = false := by
      rwa [goesOn_kind, Bool.not_eq_true] at halt
    have again := takeName_of_stop_again unspelled (.inr stop) echo
    rwa [tagged, if_neg plain] at again

end Name

/-- A spelling that starts with no letter starts with a character that spells a token by itself. -/
theorem ofSpelling?_of_head {c : Char} {cs : List Char} (plain : c.isAlpha = false)
    (unspelled : ofSpelling? [c] = none) : ofSpelling? (c :: cs) = none := by
  have heads : fixed.all (fun t => match t.text.toList with
      | c :: _ => c.isAlpha || (ofSpelling? [c]).isSome
      | [] => false) = true := by
    decide +kernel
  cases spelled : ofSpelling? (c :: cs) with
  | none => rfl
  | some t =>
    obtain ⟨member, listed⟩ := fixed_of_ofSpelling? spelled
    have head := List.all_eq_true.mp heads t member
    simp [listed, plain, unspelled] at head

/-- Once a run has started with a character that spells nothing, it can only be unknown. -/
theorem takeSymbol_of_unspelled {x : Char} (plain : x.isAlpha = false)
    (unspelled : ofSpelling? [x] = none) (seen : List Char) (c : Char) (cs : List Char)
    (starts : (seen ++ [c]).head? = some x) :
    ∃ s rest, takeSymbol seen c cs = (.unknown s, rest) := by
  induction cs generalizing seen c with
  | nil =>
    obtain ⟨more, read⟩ := List.head?_eq_some_iff.mp starts
    unfold takeSymbol
    simp only [read, ofSpelling?_of_head plain unspelled]
    exact ⟨_, _, rfl⟩
  | cons d cs ih =>
    obtain ⟨more, read⟩ := List.head?_eq_some_iff.mp starts
    unfold takeSymbol
    simp only [read, ofSpelling?_of_head plain unspelled]
    split
    · exact ⟨_, _, rfl⟩
    · exact ih _ _ rfl

/-- A symbol of one character is taken as the token that it spells. -/
theorem takeSymbol_of_spelled {c : Char} {t : Token} (spelled : ofSpelling? [c] = some t)
    (cs : List Char) : takeSymbol [] c cs = (t, cs) := by
  unfold takeSymbol
  simp only [List.nil_append, spelled]

/-! ## One token -/

/-- What can be taken off the front of a text, in each mode. -/
inductive Takes : Mode → Char → List Char → Token → Mode → List Char → Prop
  | remark {c : Char} {cs : List Char} :
    Takes .remark c cs (.remark (String.ofList (c :: cs))) .remark []
  | gap {mode : Mode} {c : Char} {cs : List Char} (other : mode ≠ .remark) (gap : isGap c = true) :
    Takes mode c cs (.blank ((c :: cs).takeWhile isGap).length) mode ((c :: cs).dropWhile isGap)
  | string {mode : Mode} {cs : List Char} (other : mode ≠ .remark) :
    Takes mode '"' cs (.string (String.ofList (takeString cs).1)) mode (takeString cs).2
  | comma {cs : List Char} : Takes .data ',' cs .comma .data cs
  | colon {cs : List Char} : Takes .data ':' cs .colon .statements cs
  | datum {c : Char} {cs : List Char} (solid : isGap c = false) (plain : c ≠ '"')
    (item : isItem c = true) :
    Takes .data c cs (.datum (String.ofList (c :: cs.takeWhile isItem))) .data
      (cs.dropWhile isItem)
  | number {c : Char} {cs : List Char} (number : (c.isDigit || c == '.') = true) :
    Takes .statements c cs (.number (String.ofList (takeNumber false (c :: cs)).1)) .statements
      (takeNumber false (c :: cs)).2
  | name {c : Char} {cs rest : List Char} {t : Token} (alpha : c.isAlpha = true)
    (taken : takeName [] false c cs = (t, rest)) :
    Takes .statements c cs t (Mode.statements.after t) rest
  | symbol {c : Char} {cs : List Char} {t : Token} (solid : isGap c = false) (plain : c ≠ '"')
    (number : (c.isDigit || c == '.') = false) (symbol : c.isAlpha = false)
    (spelled : ofSpelling? [c] = some t) : Takes .statements c cs t (Mode.statements.after t) cs
  | unknown {c : Char} {cs rest : List Char} {s : String} :
    Takes .statements c cs (.unknown s) .statements rest

section Next

variable {mode : Mode} {c : Char} {cs : List Char}

/-- Outside of remarks, blanks are taken together. -/
theorem next_of_gap (other : mode ≠ .remark) (gap : isGap c = true) :
    next mode c cs =
      (.blank ((c :: cs).takeWhile isGap).length, mode, (c :: cs).dropWhile isGap) := by
  rw [next, if_neg other, if_pos gap]

/-- Outside of remarks, a quote opens a string. -/
theorem next_quote (other : mode ≠ .remark) :
    next mode '"' cs = (.string (String.ofList (takeString cs).1), mode, (takeString cs).2) := by
  cases mode with
  | remark => exact absurd rfl other
  | statements | data => rfl

/-- In data, an unquoted item is taken as far as its characters go. -/
theorem next_item (solid : isGap c = false) (plain : c ≠ '"') (item : isItem c = true) :
    next .data c cs =
      (.datum (String.ofList (c :: cs.takeWhile isItem)), .data, cs.dropWhile isItem) := by
  have inside : c ≠ ',' ∧ c ≠ ':' := by simpa [isItem] using item
  simp [next, solid, plain, inside, List.takeWhile_cons_of_pos item,
    List.dropWhile_cons_of_pos item]

/-- In a statement, a letter opens a name or a keyword. -/
theorem next_of_alpha (alpha : c.isAlpha = true) :
    next .statements c cs =
      ((takeName [] false c cs).1, Mode.statements.after (takeName [] false c cs).1,
        (takeName [] false c cs).2) := by
  have solid : isGap c = false := by
    rw [Bool.eq_false_iff, ne_eq, isGap_iff, (isAlpha_iff c).mp alpha]
    simp
  have quote : (c == '"') = false := by
    rw [beq_eq_false_iff_ne]
    rintro rfl
    cases alpha
  have number : (c.isDigit || c == '.') = false := by
    rw [isDigit_of_isAlpha alpha, Bool.false_or, beq_eq_false_iff_ne]
    rintro rfl
    cases alpha
  simp [next, solid, quote, number, alpha]

/-- In a statement, a digit or a point opens a number. -/
theorem next_of_number (number : (c.isDigit || c == '.') = true) :
    next .statements c cs =
      (.number (String.ofList (takeNumber false (c :: cs)).1), .statements,
        (takeNumber false (c :: cs)).2) := by
  have solid : isGap c = false := by
    rw [Bool.eq_false_iff]
    intro gap
    rw [isDigit_of_isGap gap, Bool.false_or, beq_iff_eq] at number
    subst number
    cases gap
  have quote : (c == '"') = false := by
    rw [beq_eq_false_iff_ne]
    rintro rfl
    cases number
  simp [next, solid, quote, number]

/-- In a statement, all other characters are symbols. -/
theorem next_of_symbol (solid : isGap c = false) (plain : c ≠ '"')
    (number : (c.isDigit || c == '.') = false) (symbol : c.isAlpha = false) :
    next .statements c cs =
      ((takeSymbol [] c cs).1, Mode.statements.after (takeSymbol [] c cs).1,
        (takeSymbol [] c cs).2) := by
  simp [next, solid, plain, number, symbol]

/-- What is taken next is what can be taken. -/
theorem takes_of_next {m : Mode} {t : Token} {rest : List Char}
    (found : next mode c cs = (t, m, rest)) : Takes mode c cs t m rest := by
  by_cases other : mode = .remark
  · subst other
    cases found
    exact .remark
  cases gap : isGap c with
  | true =>
    rw [next_of_gap other gap] at found
    cases found
    exact .gap other gap
  | false =>
    by_cases quoted : c = '"'
    · subst quoted
      rw [next_quote other] at found
      cases found
      exact .string other
    cases mode with
    | remark => exact absurd rfl other
    | data =>
      by_cases comma : c = ','
      · subst comma
        cases found
        exact .comma
      by_cases colon : c = ':'
      · subst colon
        cases found
        exact .colon
      have item : isItem c = true := by simp [isItem, comma, colon]
      rw [next_item gap quoted item] at found
      cases found
      exact .datum gap quoted item
    | statements =>
      cases number : (c.isDigit || c == '.') with
      | true =>
        rw [next_of_number number] at found
        cases found
        exact .number number
      | false =>
        cases alpha : c.isAlpha with
        | true =>
          rw [next_of_alpha alpha] at found
          cases found
          exact .name alpha rfl
        | false =>
          rw [next_of_symbol gap quoted number alpha] at found
          cases spelled : ofSpelling? [c] with
          | some u =>
            rw [takeSymbol_of_spelled spelled] at found
            cases found
            exact .symbol gap quoted number alpha spelled
          | none =>
            obtain ⟨s, left, unknown⟩ := takeSymbol_of_unspelled alpha spelled [] c cs rfl
            rw [unknown] at found
            cases found
            exact .unknown

/-- A text is scanned as what is taken next and what is scanned from the rest. -/
theorem scan_of_next {m : Mode} {t : Token} {rest : List Char}
    (found : next mode c cs = (t, m, rest)) : scan mode (c :: cs) = t :: scan m rest := by
  rw [scan, found]

end Next

/-- The text of a token, with `us` behind it, is scanned as the token and then `us`, and it looks
like the text that was entered. -/
structure Recurs (mode : Mode) (entered : List Char) (t : Token) (m : Mode) (us : List Char) :
    Prop where
  scan_eq : scan mode (t.text.toList ++ us) = t :: scan m us
  echoes : Echoes mode entered (t.text.toList ++ us)

section Recurs

variable {mode : Mode} {c : Char} {cs us : List Char}

/-- A string is scanned again from its text, with its quotes closed. -/
theorem recurs_string (other : mode ≠ .remark) (echoes : Echoes mode (takeString cs).2 us) :
    Recurs mode ('"' :: cs) (.string (String.ofList (takeString cs).1)) mode us := by
  have stop : us.head? ≠ some '"' := by
    intro quoted
    obtain ⟨us, rfl⟩ := List.head?_eq_some_iff.mp quoted
    rcases echoes.start with same | ⟨-, empty⟩
    · apply head?_takeString cs
      cases rest : (takeString cs).2 with
      | nil =>
        rw [rest] at same
        cases same
      | cons d ds =>
        rw [rest] at same
        rw [List.head?_cons, eq_of_kind_eq_mark same.symm]
    · cases empty
  have listed : (Token.string (String.ofList (takeString cs).1)).text.toList ++ us =
      '"' :: (((takeString cs).1.flatMap fun c => if c == '"' then ['"', '"'] else [c]) ++
        '"' :: us) := by
    simp [text, quote]
  refine ⟨?_, ?_⟩
  · rw [listed, scan_of_next (next_quote other), takeString_quoted _ stop]
  · rw [listed]
    exact .of_head rfl rfl rfl

/-- An unquoted data item that another one follows is scanned again from its text. -/
theorem recurs_datum (solid : isGap c = false) (plain : c ≠ '"') (item : isItem c = true)
    (more : cs.dropWhile isItem ≠ []) (echoes : Echoes .data (cs.dropWhile isItem) us) :
    Recurs .data (c :: cs) (.datum (String.ofList (c :: cs.takeWhile isItem))) .data us := by
  have inside : ∀ d ∈ cs.takeWhile isItem, isItem d = true := fun _ => List.mem_takeWhile_imp
  have stop : us.head?.any isItem = false := by
    have halt := any_head?_dropWhile isItem cs
    match us, cs.dropWhile isItem, more, echoes.start, halt with
    | [], _, _, _, _ => rfl
    | u :: us, d :: ds, _, .inl same, halt =>
      have same : kind u = kind d := same
      rwa [List.head?_cons, Option.any_some, isItem_eq_of_kind_eq same]
  obtain ⟨taken, left⟩ := span_append inside stop
  refine ⟨?_, ?_⟩
  · simp only [text, String.toList_ofList, List.cons_append]
    rw [scan_of_next (next_item solid plain item), taken, left]
  · simp only [text, String.toList_ofList]
    exact .of_mode (by simp) (.inl rfl)

/-- A number starts with the character that opened it. -/
theorem exists_takeNumber_eq (number : (c.isDigit || c == '.') = true) (cs : List Char) :
    ∃ ds, (takeNumber false (c :: cs)).1 = c :: ds := by
  unfold takeNumber
  split
  · exact ⟨_, rfl⟩
  · next digit =>
    have point : (c == '.' && !false) = true := by simpa [digit] using number
    rw [if_pos point]
    exact ⟨_, rfl⟩

/-- A number is scanned again from its text. -/
theorem recurs_number (number : (c.isDigit || c == '.') = true)
    (echoes : Echoes .statements (takeNumber false (c :: cs)).2 us) :
    Recurs .statements (c :: cs) (.number (String.ofList (takeNumber false (c :: cs)).1))
      .statements us := by
  have again := takeNumber_again rfl echoes
  obtain ⟨ds, starts⟩ := exists_takeNumber_eq number cs
  rw [starts] at again ⊢
  refine ⟨?_, ?_⟩
  · simp only [text, String.toList_ofList, List.cons_append] at again ⊢
    rw [scan_of_next (next_of_number number), again]
  · simp only [text, String.toList_ofList, List.cons_append]
    refine .of_head rfl ?_ ?_
    · rw [Bool.eq_false_iff]
      intro alpha
      rw [isDigit_of_isAlpha alpha, Bool.false_or, beq_iff_eq] at number
      subst number
      cases alpha
    · rw [Bool.eq_false_iff, ne_eq, Bool.or_eq_true, beq_iff_eq, beq_iff_eq]
      rintro (rfl | rfl) <;> cases number

/-- Of the tokens with a single character, only the apostrophe changes how one goes on. -/
theorem after_eq_statements {t : Token} (listed : t.text.toList = [c]) (other : c ≠ '\x27') :
    Mode.statements.after t = .statements := by
  cases t with
  | word w =>
    cases w with
    | REM | DATA => cases listed
    | APOSTROPHE =>
      have same : '\x27' = c := List.singleton_inj.mp listed
      exact absurd same.symm other
    | _ => rfl
  | _ => rfl

/-- A symbol is scanned as the token that it spells. -/
theorem scan_symbol {t : Token} (solid : isGap c = false) (plain : c ≠ '"')
    (number : (c.isDigit || c == '.') = false) (symbol : c.isAlpha = false)
    (spelled : ofSpelling? [c] = some t) :
    scan .statements (c :: us) = t :: scan (Mode.statements.after t) us := by
  rw [scan_of_next (next_of_symbol solid plain number symbol), takeSymbol_of_spelled spelled]

/-- A symbol is scanned again from its text. -/
theorem recurs_symbol {t : Token} (solid : isGap c = false) (plain : c ≠ '"')
    (number : (c.isDigit || c == '.') = false) (symbol : c.isAlpha = false)
    (spelled : ofSpelling? [c] = some t) (echoes : Echoes (Mode.statements.after t) cs us) :
    Recurs .statements (c :: cs) t (Mode.statements.after t) us := by
  have listed := (fixed_of_ofSpelling? spelled).2
  refine ⟨?_, ?_⟩
  · rw [listed, List.singleton_append, scan_symbol solid plain number symbol spelled]
  · rw [listed, List.singleton_append]
    cases sign : (c == '+' || c == '-') with
    | false => exact .of_head rfl symbol sign
    | true =>
      have other : c ≠ '\x27' := by
        rintro rfl
        cases sign
      rw [after_eq_statements listed other] at echoes
      refine ⟨.inl rfl, fun _ => ?_, fun _ => ?_⟩
      · rw [exponentAhead_of_not_alpha symbol, exponentAhead_of_not_alpha symbol]
      · rw [signedAhead, signedAhead, echoes.digitAhead_eq]

/-- No character of a name is a sign of a number. -/
theorem unsigned_of_name (h : c.isAlpha = true ∨ c.isDigit = true ∨ c = '$') :
    (c == '+' || c == '-') = false := by
  rw [Bool.eq_false_iff, ne_eq, Bool.or_eq_true, beq_iff_eq, beq_iff_eq]
  rintro (rfl | rfl) <;> revert h <;> decide

/-- A name or a keyword is scanned again from its text. -/
theorem recurs_name {t : Token} {rest : List Char} (alpha : c.isAlpha = true)
    (taken : takeName [] false c cs = (t, rest))
    (echoes : Echoes (Mode.statements.after t) rest us) :
    Recurs .statements (c :: cs) t (Mode.statements.after t) us := by
  obtain ⟨run, rfl, listed, inside, again⟩ := takeName_again taken
  have same : kind c.toUpper = kind c := kind_toUpper c
  have upper : c.toUpper.isAlpha = true := by rwa [isAlpha_eq_of_kind_eq same]
  have echo : lead us = lead rest ∨ us = [] := echoes.start.imp_right And.right
  rw [List.nil_append] at listed
  refine ⟨?_, ?_⟩
  · rw [listed, List.map_cons, List.cons_append, scan_of_next (next_of_alpha upper), again us echo]
  · rw [listed, List.map_cons, List.cons_append]
    refine ⟨.inl same, fun _ => ?_, fun _ => ?_⟩
    · rw [exponentAhead, exponentAhead, isMark_toUpper]
      congr 1
      -- A name that starts with `E` is what an exponent looks like, if a digit or a sign and a
      -- digit come next.
      cases run with
      | nil =>
        have other : c.toUpper ≠ '\x27' := by
          intro apostrophe
          rw [apostrophe] at upper
          cases upper
        rw [after_eq_statements listed other] at echoes
        simp only [List.map_nil, List.nil_append]
        rw [echoes.digitAhead_eq, echoes.signed rfl]
      | cons d run =>
        have same : kind d.toUpper = kind d := kind_toUpper d
        have unsigned := unsigned_of_name (inside d List.mem_cons_self)
        have unsigned' : (d.toUpper == '+' || d.toUpper == '-') = false := by
          rwa [beq_eq_of_kind_eq same rfl, beq_eq_of_kind_eq same rfl]
        simp only [List.map_cons, List.cons_append, digitAhead, List.head?_cons, Option.any_some,
          isDigit_eq_of_kind_eq same, signedAhead_of_unsigned unsigned,
          signedAhead_of_unsigned unsigned']
    · rw [signedAhead_of_unsigned (unsigned_of_name (.inl alpha)),
        signedAhead_of_unsigned (unsigned_of_name (.inl upper))]

/-- The tokens that a listing shows as they were scanned, wherever they stand. -/
def isFirm : Token → Bool
  | .unknown _ | .blank _ | .remark _ => false
  | _ => true

/-- A token is scanned again from its text, when what follows looks like what followed it. -/
theorem recurs_of_takes {m : Mode} {t : Token} {rest : List Char}
    (takes : Takes mode c cs t m rest) (firm : t.isFirm = true)
    (inner : ∀ s, t = .datum s → rest ≠ []) (echoes : Echoes m rest us) :
    Recurs mode (c :: cs) t m us := by
  cases takes with
  | remark | gap | unknown => cases firm
  | string other => exact recurs_string other echoes
  | comma => exact ⟨scan_of_next rfl, .of_mode (by simp) (.inl rfl)⟩
  | colon => exact ⟨scan_of_next rfl, .of_mode (by simp) (.inl rfl)⟩
  | datum solid plain item => exact recurs_datum solid plain item (inner _ rfl) echoes
  | number number => exact recurs_number number echoes
  | name alpha taken => exact recurs_name alpha taken echoes
  | symbol solid plain number symbol spelled =>
    exact recurs_symbol solid plain number symbol spelled echoes

end Recurs

end NumberedBasic.Token
