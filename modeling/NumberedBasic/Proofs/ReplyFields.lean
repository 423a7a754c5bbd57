import Mathlib.Data.List.TakeWhile
import NumberedBasic.Proofs.Rescanning
import NumberedBasic.Reply

/-!
# The fields of a reply

How a reply divides into fields is said here twice, and apart from the function that divides it.
`Spells` and `Divides` are the grammar: what the text of one field looks like, and that fields stand
with commas between them. `separators` reads the reply once from left to right and counts the commas
that are not inside quotes.

Each reply divides in exactly one way, into one field more than it has separators. The fields that
`ofReply` finds are these (`Divides.split_eq`), but for one case: a last field whose quote is never
closed, in a reply whose last character that is not blank is a comma. That comma is a part of the
field's text, and yet an empty field comes after it.
-/

set_option autoImplicit false

namespace NumberedBasic.ReplyField

/-! ## The grammar -/

/-- The text of one field, between separators. The flag says that a comma after it separates, which
is so unless it is quoted and its quote is never closed. -/
inductive Spells : List Char → ReplyField → Bool → Prop
  | bare {gap body : List Char} (blank : ∀ c ∈ gap, isGap c = true)
      (start : body.head?.any isGap = false) (unquoted : body.head? ≠ some '"')
      (whole : ',' ∉ body) :
      Spells (gap ++ body) ⟨String.ofList (Text.trimEnd body), false⟩ true
  | quoted {gap text dropped : List Char} (blank : ∀ c ∈ gap, isGap c = true)
      (inside : '"' ∉ text) (behind : ',' ∉ dropped) :
      Spells (gap ++ '"' :: (text ++ '"' :: dropped)) ⟨String.ofList text, true⟩ true
  | unclosed {gap text : List Char} (blank : ∀ c ∈ gap, isGap c = true) (inside : '"' ∉ text) :
      Spells (gap ++ '"' :: text) ⟨String.ofList text, true⟩ false

/-- A text divides into fields with commas between them. The flag is that of the last field. -/
inductive Divides : List Char → List ReplyField → Bool → Prop
  | last {cs : List Char} {field : ReplyField} {closed : Bool} (spelled : Spells cs field closed) :
      Divides cs [field] closed
  | more {cs rest : List Char} {field : ReplyField} {fields : List ReplyField} {closed : Bool}
      (spelled : Spells cs field true) (divided : Divides rest fields closed) :
      Divides (cs ++ ',' :: rest) (field :: fields) closed

/-- A field ends at a comma or at the end of the text. -/
theorem exists_spells (cs : List Char) :
    (∃ field closed, Spells cs field closed) ∨
      ∃ front rest field, cs = front ++ ',' :: rest ∧ Spells front field true := by
  have whole : cs = cs.takeWhile isGap ++ cs.dropWhile isGap := List.takeWhile_append_dropWhile.symm
  have blank : ∀ c ∈ cs.takeWhile isGap, isGap c = true := fun c => List.mem_takeWhile_imp
  have start : (cs.dropWhile isGap).head?.any isGap = false := Token.any_head?_dropWhile isGap cs
  generalize cs.takeWhile isGap = gap at whole blank
  generalize cs.dropWhile isGap = body at whole start
  subst whole
  by_cases opened : body.head? = some '"'
  · obtain ⟨rest, rfl⟩ := List.head?_eq_some_iff.mp opened
    by_cases closed : '"' ∈ rest
    · obtain ⟨text, behind, rfl, inside⟩ := List.eq_append_cons_of_mem closed
      by_cases ends : ',' ∈ behind
      · obtain ⟨dropped, after, rfl, free⟩ := List.eq_append_cons_of_mem ends
        exact .inr ⟨_, after, _, by simp, .quoted blank inside free⟩
      · exact .inl ⟨_, _, .quoted blank inside ends⟩
    · exact .inl ⟨_, _, .unclosed blank closed⟩
  · by_cases ends : ',' ∈ body
    · obtain ⟨text, after, rfl, free⟩ := List.eq_append_cons_of_mem ends
      refine .inr ⟨gap ++ text, after, _, by simp, .bare blank ?_ ?_ free⟩
      · cases text with
        | nil => rfl
        | cons c text => exact start
      · cases text with
        | nil => simp
        | cons c text => exact opened
    · exact .inl ⟨_, _, .bare blank start opened ends⟩

/-- Every text divides into fields. -/
theorem exists_divides (cs : List Char) : ∃ fields closed, Divides cs fields closed := by
  induction h : cs.length using Nat.strong_induction_on generalizing cs with
  | _ n ih =>
    subst h
    obtain ⟨field, closed, spelled⟩ | ⟨front, rest, field, rfl, spelled⟩ := exists_spells cs
    · exact ⟨[field], closed, .last spelled⟩
    · obtain ⟨fields, closed, divided⟩ := ih rest.length (by simp; omega) rest rfl
      exact ⟨field :: fields, closed, .more spelled divided⟩

/-! ## Counting separators -/

/-- Where in a field a character of a reply stands. -/
inductive Zone where
  | lead
  | bare
  | quoted
  | behind
  deriving DecidableEq

/-- The zone of what follows a character that stands in this zone. -/
def Zone.next (zone : Zone) (c : Char) : Zone :=
  match zone with
  | .quoted => if c = '"' then .behind else .quoted
  | .lead =>
    if isGap c ∨ isSeparator c then .lead else if c = '"' then .quoted else .bare
  | .bare => if isSeparator c then .lead else .bare
  | .behind => if isSeparator c then .lead else .behind

/-- What is known of a reply that has been read up to some character: the zone of the next one, and
how many separators there were. -/
structure Scan where
  zone : Zone
  separators : Nat

/-- One more character is read. A comma separates unless it is quoted. -/
def Scan.read (scan : Scan) (c : Char) : Scan where
  zone := scan.zone.next c
  separators :=
    if scan.zone ≠ .quoted ∧ isSeparator c then scan.separators + 1 else scan.separators

/-- The number of commas in a reply that separate fields. -/
def separators (cs : List Char) : Nat :=
  (cs.foldl Scan.read ⟨.lead, 0⟩).separators

/-- Characters that stay in the zone they stand in and do not separate leave a scan as it is. -/
theorem Scan.foldl_read {scan : Scan} {cs : List Char} (quiet : ∀ c ∈ cs, scan.read c = scan) :
    cs.foldl Scan.read scan = scan := by
  induction cs with
  | nil => rfl
  | cons c cs ih =>
    rw [List.foldl_cons, quiet c List.mem_cons_self]
    exact ih fun d inside => quiet d (List.mem_cons_of_mem c inside)

/-- A blank is no separator. -/
theorem not_isSeparator_of_isGap {c : Char} (h : isGap c = true) : isSeparator c = false := by
  obtain rfl | rfl : c = ' ' ∨ c = '\t' := by simpa [isGap] using h
  all_goals rfl

/-- A blank in front of a field changes nothing. -/
theorem Scan.read_gap {n : Nat} {c : Char} (h : isGap c = true) :
    Scan.read ⟨.lead, n⟩ c = ⟨.lead, n⟩ := by
  simp [Scan.read, Zone.next, h, not_isSeparator_of_isGap h]

/-- Nothing but a quote changes anything within quotes. -/
theorem Scan.read_quoted {n : Nat} {c : Char} (h : c ≠ '"') :
    Scan.read ⟨.quoted, n⟩ c = ⟨.quoted, n⟩ := by
  simp [Scan.read, Zone.next, h]

/-- Nothing but a comma changes anything in a field without quotes or behind quotes. -/
theorem Scan.read_plain {zone : Zone} {n : Nat} {c : Char} (h : c ≠ ',')
    (plain : zone = .bare ∨ zone = .behind) : Scan.read ⟨zone, n⟩ c = ⟨zone, n⟩ := by
  obtain rfl | rfl := plain <;> simp [Scan.read, Zone.next, isSeparator, h]

/-- A comma that is not quoted separates. -/
theorem Scan.read_comma {zone : Zone} {n : Nat} (h : zone ≠ .quoted) :
    Scan.read ⟨zone, n⟩ ',' = ⟨.lead, n + 1⟩ := by
  cases zone with
  | quoted => exact absurd rfl h
  | _ => rfl

/-- There is no separator in a field, and its end is quoted if its quote is never closed. -/
theorem Spells.foldl_read {cs : List Char} {field : ReplyField} {closed : Bool}
    (spelled : Spells cs field closed) (n : Nat) :
    ∃ zone, cs.foldl Scan.read ⟨.lead, n⟩ = ⟨zone, n⟩ ∧ (zone = .quoted ↔ closed = false) := by
  have opening : Scan.read ⟨.lead, n⟩ '"' = ⟨.quoted, n⟩ := rfl
  have closing : Scan.read ⟨.quoted, n⟩ '"' = ⟨.behind, n⟩ := rfl
  cases spelled with
  | @bare gap body blank start unquoted whole =>
    rw [List.foldl_append, Scan.foldl_read fun c inside => Scan.read_gap (blank c inside)]
    cases body with
    | nil => exact ⟨.lead, rfl, by simp⟩
    | cons c body =>
      obtain ⟨comma, free⟩ : ',' ≠ c ∧ ',' ∉ body := by simpa using whole
      have first : Scan.read ⟨.lead, n⟩ c = ⟨.bare, n⟩ := by
        have solid : isGap c = false := by simpa using start
        have other : c ≠ '"' := by simpa using unquoted
        simp [Scan.read, Zone.next, isSeparator, solid, other, comma.symm]
      rw [List.foldl_cons, first]
      refine ⟨.bare, Scan.foldl_read fun d inside => Scan.read_plain ?_ (.inl rfl), by simp⟩
      exact ne_of_mem_of_not_mem inside free
  | @quoted gap text dropped blank inside behind =>
    rw [List.foldl_append, Scan.foldl_read fun c inside => Scan.read_gap (blank c inside),
      List.foldl_cons, opening, List.foldl_append,
      Scan.foldl_read fun c mem => Scan.read_quoted (ne_of_mem_of_not_mem mem inside),
      List.foldl_cons, closing]
    refine ⟨.behind, Scan.foldl_read fun c mem => Scan.read_plain ?_ (.inr rfl), by simp⟩
    exact ne_of_mem_of_not_mem mem behind
  | @unclosed gap text blank inside =>
    rw [List.foldl_append, Scan.foldl_read fun c inside => Scan.read_gap (blank c inside),
      List.foldl_cons, opening,
      Scan.foldl_read fun c mem => Scan.read_quoted (ne_of_mem_of_not_mem mem inside)]
    exact ⟨.quoted, rfl, by simp⟩

/-- There is one separator between any two fields, and the zone at the end tells whether the last
one is closed. -/
theorem Divides.foldl_read {cs : List Char} {fields : List ReplyField} {closed : Bool}
    (divided : Divides cs fields closed) (n : Nat) :
    (cs.foldl Scan.read ⟨.lead, n⟩).separators + 1 = n + fields.length ∧
      ((cs.foldl Scan.read ⟨.lead, n⟩).zone = .quoted ↔ closed = false) := by
  induction divided generalizing n with
  | last spelled =>
    obtain ⟨zone, ends, zones⟩ := spelled.foldl_read n
    rw [ends]
    exact ⟨rfl, zones⟩
  | @more cs rest field fields closed spelled _ ih =>
    obtain ⟨zone, ends, zones⟩ := spelled.foldl_read n
    have bare : zone ≠ .quoted := fun h => by simpa using zones.mp h
    obtain ⟨count, zones'⟩ := ih (n + 1)
    rw [List.foldl_append, ends, List.foldl_cons, Scan.read_comma bare, List.length_cons]
    exact ⟨by omega, zones'⟩

/-! ## Dividing a reply -/

/-- Whether the last character of a text that is not blank is a comma. -/
def endsInSeparator (cs : List Char) : Bool :=
  (Text.trimEnd cs).getLast?.any isSeparator

/-- Whether a text ends in a separator is decided by the last of its characters that is not
blank. -/
theorem endsInSeparator_eq (cs : List Char) :
    endsInSeparator cs = (cs.reverse.find? (!Text.isBlank ·)).any isSeparator := by
  simp only [endsInSeparator, Text.trimEnd, Text.dropEndWhile, List.getLast?_reverse,
    List.find?_not_eq_head?_dropWhile]

/-- A text with a comma at its end ends in a separator. -/
theorem endsInSeparator_comma (front : List Char) : endsInSeparator (front ++ [',']) = true := by
  have solid : Text.isBlank ',' = false := by decide
  simp [endsInSeparator_eq, solid, isSeparator]

/-- Nothing behind a quote reaches back to a comma before it. -/
theorem endsInSeparator_quote (front : List Char) {behind : List Char} (free : ',' ∉ behind) :
    endsInSeparator (front ++ '"' :: behind) = false := by
  have solid : Text.isBlank '"' = false := by decide
  rw [endsInSeparator_eq, List.reverse_append, List.reverse_cons, List.append_assoc,
    List.find?_append]
  cases found : behind.reverse.find? (!Text.isBlank ·) with
  | none => simp [solid, isSeparator]
  | some c =>
    have inside : c ∈ behind := List.mem_reverse.mp (List.mem_of_find?_eq_some found)
    simpa [isSeparator] using ne_of_mem_of_not_mem inside free

/-- The blanks in front of a text are dropped, and no more. -/
theorem span_gap {gap cs : List Char} (blank : ∀ c ∈ gap, isGap c = true)
    (start : cs.head?.any isGap = false) : (gap ++ cs).dropWhile isGap = cs :=
  (Token.span_append blank start).2

/-- A text without commas is taken as far as the next separator. -/
theorem span_comma {cs rest : List Char} (free : ',' ∉ cs)
    (stop : rest.head?.any (!isSeparator ·) = false) :
    (cs ++ rest).takeWhile (!isSeparator ·) = cs ∧
      (cs ++ rest).dropWhile (!isSeparator ·) = rest := by
  refine Token.span_append (fun c inside => ?_) stop
  simpa [isSeparator] using ne_of_mem_of_not_mem inside free

/-- A quoted text is taken as far as the quote that closes it, which is dropped. -/
theorem takeQuoted_append {text rest : List Char} (inside : '"' ∉ text)
    (stop : rest.head?.any (· != '"') = false) :
    takeQuoted (text ++ rest) = (text, rest.drop 1) := by
  have quiet : ∀ c ∈ text, (c != '"') = true := by
    intro c mem
    simpa using ne_of_mem_of_not_mem mem inside
  obtain ⟨taken, left⟩ := Token.span_append quiet stop
  simp only [takeQuoted, taken, left]

/-- A field that starts with a quote is what the quotes hold, and more follows it unless nothing is
left. -/
theorem first_of_quote {more : Bool} {cs rest : List Char}
    (opened : cs.dropWhile isGap = '"' :: rest) :
    first more cs = (⟨String.ofList (takeQuoted rest).1, true⟩,
      if (afterSeparator (takeQuoted rest).2).isEmpty && !more then none
      else some (afterSeparator (takeQuoted rest).2)) := by
  simp only [first, opened]

/-- A field that starts without a quote goes as far as the next comma, without the blanks at its
end. -/
theorem first_of_bare {more : Bool} {cs body rest : List Char}
    (start : cs.dropWhile isGap = body ++ rest) (unquoted : (body ++ rest).head? ≠ some '"')
    (free : ',' ∉ body) (stop : rest.head?.any (!isSeparator ·) = false) :
    first more cs = (⟨String.ofList (Text.trimEnd body), false⟩, rest.tail?) := by
  obtain ⟨taken, left⟩ := span_comma free stop
  unfold first
  split
  · next h =>
    rw [start] at h
    simp [h] at unquoted
  · rw [start, taken, left]
    cases rest <;> rfl

/-- The field before a comma, where another field follows. -/
theorem Spells.first_comma {cs : List Char} {field : ReplyField} (spelled : Spells cs field true)
    (front rest : List Char) :
    first (endsInSeparator (front ++ (cs ++ ',' :: rest))) (cs ++ ',' :: rest) =
      (field, some rest) := by
  cases spelled with
  | @bare gap body blank start unquoted whole =>
    have opens : (gap ++ body ++ ',' :: rest).dropWhile isGap = body ++ ',' :: rest := by
      rw [List.append_assoc]
      refine span_gap blank ?_
      cases body with
      | nil => rfl
      | cons c body => exact start
    refine first_of_bare opens ?_ whole rfl
    cases body with
    | nil => simp
    | cons c body => exact unquoted
  | @quoted gap text dropped blank inside behind =>
    have opens : (gap ++ '"' :: (text ++ '"' :: dropped) ++ ',' :: rest).dropWhile isGap =
        '"' :: (text ++ '"' :: (dropped ++ ',' :: rest)) := by
      rw [List.append_assoc, List.cons_append, List.append_assoc, List.cons_append]
      exact span_gap blank rfl
    have after : afterSeparator (dropped ++ ',' :: rest) = rest := by
      rw [afterSeparator, (span_comma behind rfl).2, List.drop_one, List.tail_cons]
    rw [first_of_quote opens, takeQuoted_append inside rfl, List.drop_one, List.tail_cons, after]
    -- A reply that ends with this comma ends in a separator.
    cases rest with
    | nil => rw [← List.append_assoc, endsInSeparator_comma]; rfl
    | cons c rest => rfl

/-- The field at the end of a reply. Another one follows if it is quoted, its quote is never closed
and the reply ends in a comma. -/
theorem Spells.first_last {cs : List Char} {field : ReplyField} {closed : Bool}
    (spelled : Spells cs field closed) (front : List Char) :
    first (endsInSeparator (front ++ cs)) cs =
      (field, if !closed && endsInSeparator (front ++ cs) then some [] else none) := by
  cases spelled with
  | @bare gap body blank start unquoted whole =>
    have opens : (gap ++ body).dropWhile isGap = body ++ [] := by
      rw [span_gap blank start, List.append_nil]
    exact first_of_bare opens (by rwa [List.append_nil]) whole rfl
  | @quoted gap text dropped blank inside behind =>
    have after : afterSeparator dropped = [] := by
      rw [← List.append_nil dropped, afterSeparator, (span_comma behind rfl).2, List.drop_nil]
    have ends : endsInSeparator (front ++ (gap ++ '"' :: (text ++ '"' :: dropped))) = false := by
      simpa using endsInSeparator_quote (front ++ (gap ++ '"' :: text)) behind
    rw [first_of_quote (span_gap blank rfl), takeQuoted_append inside rfl, List.drop_one,
      List.tail_cons, after, ends]
    rfl
  | @unclosed gap text blank inside =>
    have taken : takeQuoted text = (text, []) := by
      rw [← List.append_nil text, takeQuoted_append inside rfl, List.append_nil, List.drop_nil]
    rw [first_of_quote (span_gap blank rfl), taken]
    cases endsInSeparator (front ++ (gap ++ '"' :: text)) <;> rfl

/-- A reply with nothing behind its first field has one field. -/
theorem split_of_none {more : Bool} {cs : List Char} {field : ReplyField}
    (h : first more cs = (field, none)) : split more cs = [field] := by
  rw [split]
  split
  · next h' => simp_all
  · next h' => simp_all

/-- A reply with more behind its first field has that one and those of the rest. -/
theorem split_of_some {more : Bool} {cs after : List Char} {field : ReplyField}
    (h : first more cs = (field, some after)) : split more cs = field :: split more after := by
  rw [split]
  split
  · next h' => simp_all
  · next h' => simp_all

/-- An empty reply has one empty field. -/
theorem split_nil (more : Bool) : split more [] = [⟨"", false⟩] :=
  split_of_none rfl

/-- The fields of the end of a reply. -/
theorem Divides.split_eq {cs : List Char} {fields : List ReplyField} {closed : Bool}
    (divided : Divides cs fields closed) (front : List Char) :
    split (endsInSeparator (front ++ cs)) cs =
      fields ++ if !closed && endsInSeparator (front ++ cs) then [⟨"", false⟩] else [] := by
  induction divided generalizing front with
  | last spelled =>
    have found := spelled.first_last front
    split at found
    · next astray => rw [split_of_some found, split_nil, if_pos astray]; rfl
    · next regular => rw [split_of_none found, if_neg regular]; rfl
  | @more cs rest field fields closed spelled _ ih =>
    have others := ih (front ++ (cs ++ [',']))
    have same : front ++ (cs ++ [',']) ++ rest = front ++ (cs ++ ',' :: rest) := by simp
    rw [same] at others
    rw [split_of_some (spelled.first_comma front rest), others, List.cons_append]

/-- Each reply divides into fields in exactly one way, and into one field more than there are
separators in it. Its fields are found, and after them an empty one if the last field is quoted, its
quote is never closed and the last character of the reply that is not blank is a comma. -/
theorem fields_of_reply (reply : String) :
    ∃ fields closed,
      Divides reply.toList fields closed ∧
      (∀ others shut, Divides reply.toList others shut → others = fields ∧ shut = closed) ∧
      fields.length = separators reply.toList + 1 ∧
      ofReply reply =
        if closed = false ∧ endsInSeparator reply.toList = true then fields ++ [⟨"", false⟩]
        else fields := by
  obtain ⟨fields, closed, divided⟩ := exists_divides reply.toList
  have found := divided.split_eq []
  rw [List.nil_append] at found
  obtain ⟨count, zones⟩ := divided.foldl_read 0
  refine ⟨fields, closed, divided, ?_, ?_, ?_⟩
  · intro others shut divided'
    -- The scan fixes the flag and the number of fields, and the split fixes the fields.
    obtain ⟨count', zones'⟩ := divided'.foldl_read 0
    have found' := divided'.split_eq []
    rw [List.nil_append, found] at found'
    refine ⟨(List.append_inj found' (by omega)).1.symm, ?_⟩
    have flags := zones'.symm.trans zones
    cases shut <;> cases closed <;> simp_all
  · rw [separators]
    omega
  · have whole : ofReply reply = split (endsInSeparator reply.toList) reply.toList := rfl
    rw [whole, found]
    cases closed <;> cases endsInSeparator reply.toList <;> simp

/-- The comma at the end of a quoted field that is never closed does not separate, and an empty
field is found after it. -/
theorem unclosed_comma_adds_field :
    Divides "\"A,".toList [⟨"A,", true⟩] false ∧
      separators "\"A,".toList = 0 ∧
      ofReply "\"A," = [⟨"A,", true⟩, ⟨"", false⟩] := by
  have divided : Divides "\"A,".toList [⟨"A,", true⟩] false :=
    .last (@Spells.unclosed [] ['A', ','] (by simp) (by simp))
  exact ⟨divided, rfl, divided.split_eq []⟩

end NumberedBasic.ReplyField
