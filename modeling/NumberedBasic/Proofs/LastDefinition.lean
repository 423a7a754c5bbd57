import Mathlib.Data.List.TakeWhile
import NumberedBasic.Proofs.BlockReading
import NumberedBasic.Proofs.Places

/-!
# The last definition of a line wins

A source is entered line by line, and only the last physical line with a number counts for it:
`Listing.definition?` picks that line from the source, without entering anything.
`line?_of_enterAll` says what a listing holds after any number of entries, `enterAll_eq_error_iff`
when one of them is refused. A program has the lines of its listing in ascending order
(`addAll_eq_ok`, `addAll_eq_error_iff`), so that bisection finds every one of them
(`findLine?_eq_some_iff`). The main statement, `Program.last_definition_wins`, puts these together.
-/

set_option autoImplicit false

namespace NumberedBasic

namespace Text

/-- A text of which trimming leaves nothing is made of blanks. -/
theorem isBlank_of_trim_isEmpty {cs : List Char} (h : (trim cs).isEmpty = true) :
    ∀ c ∈ cs, isBlank c = true := by
  simp only [trim, trimEnd, dropEndWhile, List.isEmpty_iff, List.reverse_eq_nil_iff,
    List.dropWhile_eq_nil_iff, List.mem_reverse] at h
  have nothing : trimStart cs = [] := by
    by_contra front
    have blank := h _ (List.head_mem front)
    have notBlank := List.head_dropWhile_not isBlank front
    exact Bool.false_ne_true (notBlank.symm.trans blank)
  exact List.dropWhile_eq_nil_iff.mp nothing

/-- A blank is no digit. -/
theorem isDigit_of_isBlank {c : Char} (h : isBlank c = true) : c.isDigit = false := by
  have outside : c.toNat < '0'.toNat ∨ '9'.toNat < c.toNat := by
    have zero : '0'.toNat = 48 := rfl
    have nine : '9'.toNat = 57 := rfl
    simp [isBlank, within, blankRanges] at h
    omega
  rw [Bool.eq_false_iff, ne_eq, Char.isDigit_iff_toNat]
  omega

/-- What is left when characters are taken off the end was there before. -/
theorem mem_of_mem_dropEndWhile {p : Char → Bool} {cs : List Char} {c : Char}
    (h : c ∈ dropEndWhile p cs) : c ∈ cs := by
  have inside := (List.dropWhile_sublist p).subset (List.mem_reverse.mp h)
  exact List.mem_reverse.mp inside

end Text

namespace Token

/-- A number that a line starts with is one that a line may have. -/
theorem le_of_takeLineNumber {cs : List Char} {n : LineNumber}
    (h : (takeLineNumber cs).1 = some n) : n ≤ maxLineNumber := by
  unfold takeLineNumber at h
  dsimp only at h
  split at h
  · cases h
  · next m digits =>
    have same : m = n := by
      split at h <;> exact Option.some.inj h
    subst same
    simp only [lineNumberOfDigits?, Bool.and_eq_true, decide_eq_true_eq,
      Option.ite_none_right_eq_some] at digits
    obtain ⟨⟨-, bound⟩, value⟩ := digits
    rwa [Option.some.inj value] at bound

/-- Without digits there is no line number. -/
theorem takeLineNumber_of_no_digit {cs : List Char} (h : ∀ c ∈ cs, c.isDigit = false) :
    (takeLineNumber cs).1 = none := by
  have noDigits : (cs.dropWhile isGap).takeWhile Char.isDigit = [] := by
    rw [List.takeWhile_eq_nil_iff]
    intro positive digit
    have inside := (List.dropWhile_sublist isGap).subset (List.get_mem _ ⟨0, positive⟩)
    rw [h _ inside] at digit
    cases digit
  simp [takeLineNumber, noDigits, lineNumberOfDigits?]

end Token

namespace Listing

/-- The line that a physical line of a source stands for. -/
def lineOf (text : List Char) : Line :=
  Line.ofText (String.ofList text)

/-- A physical line that cannot be entered: it is not blank, and it is too long or has no number
that a line may have. -/
def Refused (text : List Char) : Prop :=
  (Text.trim text).isEmpty = false ∧
    (maxLineLength < text.length ∨
      ∀ n, n ≤ Token.maxLineNumber → (lineOf text).number ≠ some n)

/-- The fault of a physical line that cannot be entered. -/
def refusal (text : List Char) : Fault :=
  if text.length > maxLineLength then Fault.badSyntax "LINE BUFFER OVERFLOW"
  else unnumberedFault (lineOf text)

/-- The last of some physical lines that has the number `n`. -/
def definition? (texts : List (List Char)) (n : LineNumber) : Option Line :=
  (texts.map lineOf).reverse.find? fun line => line.number == some n

variable {listing : Listing} {texts : List (List Char)} {text : List Char} {n : LineNumber}

/-- The number that a physical line has is one that a line may have. -/
theorem le_of_number_lineOf (h : (lineOf text).number = some n) : n ≤ Token.maxLineNumber :=
  Token.le_of_takeLineNumber h

/-- A blank physical line has no number. -/
theorem number_lineOf_of_blank (h : (Text.trim text).isEmpty = true) :
    (lineOf text).number = none := by
  apply Token.takeLineNumber_of_no_digit
  intro c inside
  have inText := Text.mem_of_mem_dropEndWhile inside
  rw [String.toList_ofList] at inText
  exact Text.isDigit_of_isBlank (Text.isBlank_of_trim_isEmpty h c inText)

/-- Whether a physical line is refused can be told from its length and its number. -/
theorem refused_iff :
    Refused text ↔ (Text.trim text).isEmpty = false ∧
      (maxLineLength < text.length ∨ (lineOf text).number = none) := by
  have unnumbered : (∀ n, n ≤ Token.maxLineNumber → (lineOf text).number ≠ some n) ↔
      (lineOf text).number = none := by
    constructor
    · intro none
      cases number : (lineOf text).number with
      | none => rfl
      | some n => exact absurd number (none n (le_of_number_lineOf number))
    · intro none n _ some
      rw [none] at some
      cases some
  rw [Refused, unnumbered]

/-! ## Entering lines -/

/-- A line that is refused is refused whatever has been entered before, and changes nothing. -/
theorem enter_of_refused (listing : Listing) (h : Refused text) :
    listing.enter (String.ofList text) = (.error (refusal text), listing) := by
  obtain ⟨-, tooLong | unnumbered⟩ := refused_iff.mp h
  · simp [enter, refusal, tooLong]
  · by_cases tooLong : maxLineLength < text.length
    · simp [enter, refusal, tooLong]
    · have number : (Line.ofText (String.ofList text)).number = none := unnumbered
      simp [enter, refusal, tooLong, number, lineOf]

/-- Every other line that is not blank is entered. -/
theorem enter_of_not_refused (listing : Listing) (nonblank : (Text.trim text).isEmpty = false)
    (h : ¬Refused text) :
    listing.enter (String.ofList text) = (.ok (), listing.insert (lineOf text)) := by
  rw [refused_iff, not_and, not_or] at h
  obtain ⟨short, numbered⟩ := h nonblank
  obtain ⟨n, number⟩ := Option.ne_none_iff_exists'.mp numbered
  have number' : (Line.ofText (String.ofList text)).number = some n := number
  simp [enter, short, number', lineOf]

/-- A line that is refused leaves the listing as it was. -/
theorem enter_of_error {text : String} {fault : Fault} (h : (listing.enter text).1 = .error fault) :
    (listing.enter text).2 = listing := by
  unfold enter at h ⊢
  split at h
  · next tooLong => rw [if_pos tooLong]
  · next short =>
    rw [if_neg short]
    dsimp only at h ⊢
    split at h
    · rfl
    · cases h

/-- What is under a number after a line has been entered. -/
theorem line?_insert (listing : Listing) (line : Line) (n : LineNumber) :
    (listing.insert line).line? n =
      if line.number = some n then (if line.isEmpty then none else some line)
      else listing.line? n := by
  cases number : line.number with
  | none => simp [insert, number]
  | some m =>
    by_cases same : m = n
    · subst same
      by_cases empty : line.isEmpty <;> simp [insert, line?, number, empty]
    · by_cases empty : line.isEmpty <;>
        simp [insert, line?, number, empty, same, Std.TreeMap.getElem?_erase,
          Std.TreeMap.getElem?_insert]

/-- The last line with a number is the last of the later ones that has it, and the first one if none
of them has. -/
theorem definition?_cons :
    definition? (text :: texts) n =
      (definition? texts n).or (if (lineOf text).number = some n then some (lineOf text)
        else none) := by
  by_cases same : (lineOf text).number = some n <;>
    simp [definition?, List.find?_append, same]

/-- What a listing holds after some lines have been entered: under each number what its last
definition says, which is nothing if that is the number alone. -/
theorem line?_of_enterAll {index : Nat} {result : Listing}
    (h : listing.enterAll index texts = .ok result) (n : LineNumber) :
    result.line? n =
      match definition? texts n with
      | some line => if line.isEmpty then none else some line
      | none => listing.line? n := by
  induction texts generalizing listing index with
  | nil =>
    cases h
    rfl
  | cons text texts ih =>
    unfold enterAll at h
    by_cases blank : (Text.trim text).isEmpty = true
    · rw [if_pos blank] at h
      rw [ih h, definition?_cons, number_lineOf_of_blank blank]
      simp
    · rw [if_neg blank] at h
      by_cases refused : Refused text
      · rw [enter_of_refused listing refused] at h
        cases h
      · rw [enter_of_not_refused listing (Bool.eq_false_iff.mpr blank) refused] at h
        rw [ih h, definition?_cons]
        cases definition? texts n with
        | some line => rfl
        | none =>
          by_cases same : (lineOf text).number = some n <;> simp [line?_insert, same]

/-- Entering fails exactly if a line is refused, with the fault of the first one. -/
theorem enterAll_eq_error_iff {index : Nat} {fault : Fault} :
    listing.enterAll index texts = .error fault ↔
      ∃ before text after, texts = before ++ text :: after ∧
        (∀ earlier ∈ before, ¬Refused earlier) ∧ Refused text ∧
        fault = locate (refusal text) (index + before.length) := by
  induction texts generalizing listing index with
  | nil => simp [enterAll]
  | cons text texts ih =>
    unfold enterAll
    by_cases refused : Refused text
    · -- the first line is the one that is refused
      rw [if_neg (Bool.eq_false_iff.mp refused.1), enter_of_refused listing refused]
      simp only [Except.error.injEq]
      constructor
      · rintro rfl
        exact ⟨[], text, texts, rfl, nofun, refused, rfl⟩
      · rintro ⟨before, other, after, split, fine, -, rfl⟩
        cases before with
        | nil =>
          cases split
          rfl
        | cons earlier before =>
          cases split
          exact absurd refused (fine text List.mem_cons_self)
    · -- the first line is passed over or entered, and the rest decides
      have rest : ∀ next : Listing, next.enterAll (index + 1) texts = .error fault ↔
          ∃ before other after, text :: texts = before ++ other :: after ∧
            (∀ earlier ∈ before, ¬Refused earlier) ∧ Refused other ∧
            fault = locate (refusal other) (index + before.length) := by
        intro next
        rw [ih]
        constructor
        · rintro ⟨before, other, after, rfl, fine, isRefused, rfl⟩
          refine ⟨text :: before, other, after, rfl, ?_, isRefused, ?_⟩
          · exact List.forall_mem_cons.mpr ⟨refused, fine⟩
          · rw [List.length_cons, Nat.add_assoc, Nat.add_comm 1]
        · rintro ⟨before, other, after, split, fine, isRefused, rfl⟩
          cases before with
          | nil =>
            cases split
            exact absurd isRefused refused
          | cons earlier before =>
            cases split
            refine ⟨before, other, after, rfl, ?_, isRefused, ?_⟩
            · exact (List.forall_mem_cons.mp fine).2
            · rw [List.length_cons, Nat.add_assoc, Nat.add_comm 1]
      by_cases blank : (Text.trim text).isEmpty = true
      · rw [if_pos blank]
        exact rest listing
      · rw [if_neg blank, enter_of_not_refused listing (Bool.eq_false_iff.mpr blank) refused]
        exact rest (listing.insert (lineOf text))

/-! ## What a listing holds -/

/-- The numbers of the lines, in order. -/
def numbers (listing : Listing) : List LineNumber :=
  listing.toList.map Prod.fst

/-- The lines of a listing are those that are found under their numbers. -/
theorem mem_toList_iff {line : Line} : (n, line) ∈ listing.toList ↔ listing.line? n = some line :=
  Std.TreeMap.mem_toList_iff_getElem?_eq_some

/-- A listing is in ascending order. -/
theorem pairwise_toList (listing : Listing) :
    listing.toList.Pairwise fun a b => a.1 < b.1 :=
  Std.TreeMap.ordered_keys_toList.imp fun less => Nat.compare_eq_lt.mp less

/-- The numbers of a listing are in ascending order. -/
theorem pairwise_numbers (listing : Listing) : listing.numbers.Pairwise (· < ·) :=
  List.pairwise_map.mpr listing.pairwise_toList

/-- The last physical line with the number `n` is `line`, and it is more than a number. -/
def Kept (source : String) (n : LineNumber) (line : Line) : Prop :=
  definition? (Text.lines source.toList) n = some line ∧ line.isEmpty = false

/-- The lines of the listing of a source are those that are kept. -/
theorem mem_toList_of_load {source : String} (h : load source = .ok listing) {line : Line} :
    (n, line) ∈ listing.toList ↔ Kept source n line := by
  rw [mem_toList_iff, line?_of_enterAll h n, Kept]
  cases definition? (Text.lines source.toList) n with
  | none => simp [empty, line?]
  | some last =>
    by_cases isEmpty : last.isEmpty <;> simp [isEmpty]
    · rintro rfl
      exact isEmpty
    · rintro rfl
      simpa using isEmpty

end Listing

namespace Program

/-! ## Reading a listing -/

variable {program : Program} {lines : List (LineNumber × Line)} {n : LineNumber}

/-- A line of a program is what a line of the listing was read into. -/
def IsRead (entry : LineNumber × Line) (line : ProgramLine) : Prop :=
  line.number = entry.1 ∧ entry.2.statements = .ok line.statements.toList

/-- Collecting data adds no lines. -/
theorem lines_foldl_addData (statements : List Statement) :
    (statements.foldl (addData n) program).lines = program.lines := by
  induction statements generalizing program with
  | nil => rfl
  | cons statement statements ih =>
    rw [List.foldl_cons, ih]
    unfold addData
    split <;> rfl

/-- An added line comes last, whatever data it has. -/
theorem lines_addLine (statements : List Statement) :
    (program.addLine n statements).lines = program.lines.push ⟨n, statements.toArray⟩ := by
  simp [addLine, lines_foldl_addData]

/-- A listing that can be read is read line by line, in its order. -/
theorem addAll_eq_ok {result : Program} (h : program.addAll lines = .ok result) :
    ∃ added, result.lines.toList = program.lines.toList ++ added ∧
      added.map ProgramLine.number = lines.map Prod.fst ∧
      ∀ line ∈ added, ∃ entry ∈ lines, IsRead entry line := by
  fun_induction addAll program lines with
  | case1 program =>
    cases h
    exact ⟨[], by simp, rfl, nofun⟩
  | case2 program n line rest statements read ih =>
    obtain ⟨added, laid, numbered, reads⟩ := ih h
    refine ⟨⟨n, statements.toArray⟩ :: added, ?_, ?_, ?_⟩
    · rw [laid, lines_addLine]
      simp
    · simp [numbered]
    · intro other inside
      rcases List.mem_cons.mp inside with rfl | inside
      · exact ⟨(n, line), List.mem_cons_self, rfl, by simpa using read⟩
      · obtain ⟨entry, listed, isRead⟩ := reads other inside
        exact ⟨entry, List.mem_cons_of_mem _ listed, isRead⟩
  | case3 => cases h

/-- A listing cannot be read exactly if one of its lines cannot, and the first one is at fault. -/
theorem addAll_eq_error_iff {fault : Fault} :
    program.addAll lines = .error fault ↔
      ∃ before n line after, lines = before ++ (n, line) :: after ∧
        (∀ entry ∈ before, ∃ statements, entry.2.statements = .ok statements) ∧
        line.statements = .error fault := by
  induction lines generalizing program with
  | nil => simp [addAll]
  | cons entry lines ih =>
    obtain ⟨n, line⟩ := entry
    unfold addAll
    cases read : line.statements with
    | error other =>
      simp only [Except.error.injEq]
      constructor
      · rintro rfl
        exact ⟨[], n, line, lines, rfl, nofun, read⟩
      · rintro ⟨before, m, failing, after, split, fine, failed⟩
        cases before with
        | nil =>
          cases split
          rw [read] at failed
          exact Except.error.inj failed
        | cons first before =>
          cases split
          obtain ⟨statements, wasRead⟩ := fine (n, line) List.mem_cons_self
          rw [read] at wasRead
          cases wasRead
    | ok statements =>
      simp only [ih]
      constructor
      · rintro ⟨before, m, failing, after, rfl, fine, failed⟩
        refine ⟨(n, line) :: before, m, failing, after, rfl, ?_, failed⟩
        exact List.forall_mem_cons.mpr ⟨⟨statements, read⟩, fine⟩
      · rintro ⟨before, m, failing, after, split, fine, failed⟩
        cases before with
        | nil =>
          cases split
          rw [read] at failed
          cases failed
        | cons first before =>
          cases split
          exact ⟨before, m, failing, after, rfl, (List.forall_mem_cons.mp fine).2, failed⟩

/-! ## Finding a line by its number -/

/-- The lines stand in ascending order of their numbers. -/
def Ascending (lines : Array ProgramLine) : Prop :=
  lines.toList.Pairwise fun a b => a.number < b.number

/-- Of two lines in ascending order, the later one has the larger number. -/
theorem Ascending.lt {lines : Array ProgramLine} (h : Ascending lines) {i j : Nat}
    (less : i < j) (bound : j < lines.size) : lines[i].number < lines[j].number := by
  have pair := List.pairwise_iff_getElem.mp h i j (by simpa using Nat.lt_trans less bound)
    (by simpa using bound) less
  simpa using pair

/-- Bisection finds a line that is there. -/
theorem search_of_getElem? {lines : Array ProgramLine} (h : Ascending lines) {low high i : Nat}
    {line : ProgramLine} (above : low ≤ i) (below : i < high) (inside : high ≤ lines.size)
    (stands : lines[i]? = some line) : search lines line.number low high = some i := by
  obtain ⟨bound, rfl⟩ := Array.getElem?_eq_some_iff.mp stands
  fun_induction search lines lines[i].number low high with
  | case1 low high bounds middle middleBound found same =>
    -- two lines with one number would not be in ascending order
    rcases Nat.lt_trichotomy middle i with less | equal | greater
    · exact absurd same (Nat.ne_of_lt (h.lt less bound))
    · rw [equal]
    · exact absurd same (Nat.ne_of_gt (h.lt greater middleBound))
  | case2 low high bounds middle middleBound found other less ih =>
    have right : middle < i := by
      by_contra left
      rcases Nat.lt_or_eq_of_le (Nat.le_of_not_lt left) with before | equal
      · exact Nat.lt_asymm less (h.lt before middleBound)
      · subst equal
        exact other rfl
    exact ih (by omega) below inside
  | case3 low high bounds middle middleBound found other notLess ih =>
    have left : i < middle := by
      by_contra right
      rcases Nat.lt_or_eq_of_le (Nat.le_of_not_lt right) with after | equal
      · exact notLess (h.lt after bound)
      · subst equal
        exact other rfl
    exact ih above left (by omega)
  | case4 low high outside => exact absurd ⟨by omega, inside⟩ outside

/-- In a program whose lines are in ascending order a number finds the start of its line, and
nothing if there is no such line. -/
theorem findLine?_eq_some_iff (ascending : Ascending program.lines) {a : Address} :
    program.findLine? n = some a ↔
      a.offset = 0 ∧ ∃ line, program.lines[a.line]? = some line ∧ line.number = n := by
  constructor
  · intro h
    obtain ⟨i, found, rfl⟩ := Option.map_eq_some_iff.mp h
    exact ⟨rfl, (of_search_eq_some found).2.2⟩
  · rintro ⟨start, line, stands, rfl⟩
    have bound := (Array.getElem?_eq_some_iff.mp stands).1
    have found := search_of_getElem? ascending (Nat.zero_le _) bound (Nat.le_refl _) stands
    obtain ⟨i, offset⟩ := a
    subst start
    rw [findLine?, found]
    rfl

/-- The search by halves finds a number exactly if a line has it. -/
theorem findLine?_isSome_iff (ascending : Ascending program.lines) :
    (program.findLine? n).isSome ↔ n ∈ program.numbers := by
  rw [Option.isSome_iff_exists, numbers, List.mem_map]
  constructor
  · rintro ⟨a, found⟩
    obtain ⟨-, line, stands, numbered⟩ := (findLine?_eq_some_iff ascending).mp found
    exact ⟨line, (Array.mem_of_getElem? stands).val, numbered⟩
  · rintro ⟨line, inside, numbered⟩
    obtain ⟨i, stands⟩ := List.mem_iff_getElem?.mp inside
    rw [Array.getElem?_toList] at stands
    exact ⟨⟨i, 0⟩, (findLine?_eq_some_iff ascending).mpr ⟨rfl, line, stands, numbered⟩⟩

/-! ## Loading a source -/

open Listing (Kept Refused refusal locate)

variable {source : String} {listing : Listing}

/-- A source is loaded by reading the lines of its listing in order. -/
theorem load_of_listing (h : Listing.load source = .ok listing) :
    load source = empty.addAll listing.toList := by
  simp only [load, h, ofListing]
  rfl

/-- A source whose lines can all be entered cannot be loaded exactly if a line that is kept cannot
be read; of these the one with the smallest number comes first in the listing. -/
theorem load_eq_error_iff (h : Listing.load source = .ok listing) {fault : Fault} :
    load source = .error fault ↔
      ∃ n line, Kept source n line ∧ line.statements = .error fault ∧
        ∀ m < n, ∀ other, Kept source m other →
          ∃ statements, other.statements = .ok statements := by
  rw [load_of_listing h, addAll_eq_error_iff]
  have order := listing.pairwise_toList
  constructor
  · rintro ⟨before, n, line, after, split, fine, failed⟩
    have listed : (n, line) ∈ listing.toList := by simp [split]
    refine ⟨n, line, (Listing.mem_toList_of_load h).mp listed, failed, ?_⟩
    intro m smaller other kept
    have inside := (Listing.mem_toList_of_load h).mpr kept
    rw [split] at inside order
    rcases List.mem_append.mp inside with earlier | later
    · exact fine (m, other) earlier
    · -- what comes later has a greater number
      have greater := (List.pairwise_append.mp order).2.1
      rcases List.mem_cons.mp later with same | later
      · cases same
        exact absurd smaller (Nat.lt_irrefl _)
      · have larger := (List.pairwise_cons.mp greater).1 _ later
        exact absurd smaller (Nat.lt_asymm larger)
  · rintro ⟨n, line, kept, failed, fine⟩
    obtain ⟨before, after, split⟩ :=
      List.append_of_mem ((Listing.mem_toList_of_load h).mpr kept)
    refine ⟨before, n, line, after, split, ?_, failed⟩
    intro entry earlier
    have listed : entry ∈ listing.toList := by simp [split, earlier]
    rw [split] at order
    have smaller := (List.pairwise_append.mp order).2.2 entry earlier _ List.mem_cons_self
    exact fine entry.1 smaller entry.2 ((Listing.mem_toList_of_load h).mp listed)

/-- A program that was loaded has the lines of its listing, read and in ascending order. -/
theorem lines_of_load (h : Listing.load source = .ok listing) (loaded : load source = .ok program) :
    program.numbers = listing.numbers ∧ Ascending program.lines ∧
      ∀ line ∈ program.lines.toList, ∃ entry ∈ listing.toList, IsRead entry line := by
  rw [load_of_listing h] at loaded
  obtain ⟨added, laid, numbered, reads⟩ := addAll_eq_ok loaded
  have whole : program.lines.toList = added := by simpa [empty] using laid
  have sameNumbers : program.numbers = listing.numbers := by
    rw [numbers, whole, numbered]
    rfl
  refine ⟨sameNumbers, ?_, by rwa [whole]⟩
  have order := listing.pairwise_numbers
  rw [← sameNumbers, numbers, List.pairwise_map] at order
  exact order

/-- Of a source, the last physical line with a number counts. Entering a source fails exactly if a
physical line is refused, with the fault of the first one, and a line that is refused changes
nothing. Otherwise the lines of the listing, in ascending order, are the last definitions that are
more than a number; the program cannot be loaded exactly if one of these cannot be read, the one
with the smallest number being at fault; and if it can, their numbers are the program's, and each of
them finds the start of the statements that its last definition was read into. -/
theorem last_definition_wins (source : String) :
    (∀ fault, Listing.load source = .error fault ↔
      ∃ before text after, Text.lines source.toList = before ++ text :: after ∧
        (∀ earlier ∈ before, ¬Refused earlier) ∧ Refused text ∧
        fault = locate (refusal text) before.length) ∧
    (∀ (listing : Listing) text fault, (listing.enter text).1 = .error fault →
      (listing.enter text).2 = listing) ∧
    ∀ listing, Listing.load source = .ok listing →
      listing.numbers.Pairwise (· < ·) ∧
      (∀ n, n ∈ listing.numbers ↔ ∃ line, Kept source n line) ∧
      (∀ fault, load source = .error fault ↔
        ∃ n line, Kept source n line ∧ line.statements = .error fault ∧
          ∀ m < n, ∀ other, Kept source m other →
            ∃ statements, other.statements = .ok statements) ∧
      ∀ program, load source = .ok program →
        program.numbers = listing.numbers ∧
        ∀ n, ((program.findLine? n).isSome ↔ ∃ line, Kept source n line) ∧
          ∀ a, program.findLine? n = some a →
            ∃ line statements, Kept source n line ∧ line.statements = .ok statements ∧
              a.offset = 0 ∧ program.lines[a.line]? = some ⟨n, statements.toArray⟩ := by
  refine ⟨fun fault => ?_, fun listing text fault refused => ?_, fun listing h => ?_⟩
  · rw [Listing.load, Listing.enterAll_eq_error_iff]
    simp only [Nat.zero_add]
  · exact Listing.enter_of_error refused
  · have member : ∀ n, n ∈ listing.numbers ↔ ∃ line, Kept source n line := by
      intro n
      simp [Listing.numbers, Listing.mem_toList_of_load h]
    refine ⟨listing.pairwise_numbers, member, fun fault => load_eq_error_iff h, ?_⟩
    intro program loaded
    obtain ⟨sameNumbers, ascending, reads⟩ := lines_of_load h loaded
    refine ⟨sameNumbers, fun n => ⟨?_, fun a found => ?_⟩⟩
    · rw [← member n, ← sameNumbers, findLine?_isSome_iff ascending]
    · obtain ⟨start, line, stands, rfl⟩ := (findLine?_eq_some_iff ascending).mp found
      have inside : line ∈ program.lines.toList := (Array.mem_of_getElem? stands).val
      obtain ⟨⟨n, kept⟩, listed, sameNumber, read⟩ := reads line inside
      refine ⟨kept, line.statements.toList, ?_, read, start, stands⟩
      rw [sameNumber]
      exact (Listing.mem_toList_of_load h).mp listed

/-- Line 10 is entered again after a first version that cannot be read, and line 30 is removed. -/
theorem last_definition_wins_edited :
    let source := "10 PRINT (\n30 END\n20 STOP\n10 REM\n30\n"
    ∃ listing program, Listing.load source = .ok listing ∧ load source = .ok program ∧
      program.numbers = [10, 20] ∧ (∃ line, Kept source 10 line) ∧ (∃ line, Kept source 20 line) ∧
      ¬∃ line, Kept source 30 line := by
  intro source
  have numbered : (load source).toOption.map numbers = some [10, 20] := by decide +kernel
  cases loaded : load source with
  | error fault =>
    rw [loaded] at numbered
    cases numbered
  | ok program =>
    rw [loaded] at numbered
    have programNumbers : program.numbers = [10, 20] := Option.some.inj numbered
    obtain ⟨listing, entered, -⟩ := exists_of_bind_eq_ok loaded
    obtain ⟨-, member, -, onSuccess⟩ := (last_definition_wins source).2.2 listing entered
    rw [← (onSuccess program loaded).1, programNumbers] at member
    refine ⟨listing, program, entered, rfl, programNumbers, ?_, ?_, ?_⟩
    · exact (member 10).mp (by decide)
    · exact (member 20).mp (by decide)
    · rw [← member 30]
      decide

end Program

end NumberedBasic
