import NumberedBasic.Proofs.EvaluationRules
import NumberedBasic.Proofs.LastDefinition
import NumberedBasic.Proofs.Replies
import NumberedBasic.Proofs.RunHistory

/-!
# The order of data

The data items of a program stand in one sequence, with an index of where the items of each `DATA`
start. Both are built up while the lines of the program are read. `Indexed` says that they agree
with the lines that have been read so far, and `indexed_of_load` that they do so in the end: the
sequence holds the items of all lines in order, and a line number is sent to the number of items on
the lines before it.

A run is looked at from the items. What an item gives a target is said by `Target.Admits` and
`Target.worth`: a target for strings takes the text of any item, and one for numbers the number that
an item without quotes spells. `serve` gives items to the targets of a `READ`, and `Program.unread`
is what some statements have left of the data if `READ` does this, and `CLEAR` and `RESTORE` start
anew. `Leads.unread` says that the position that a session keeps stands for these items.
-/

set_option autoImplicit false

namespace NumberedBasic

/-! ## Data and their index -/

/-- The data items of a statement. -/
def Statement.items : Statement → List Datum
  | .run (.data _ items) => items
  | _ => []

/-- The data items of a line, from left to right. -/
def ProgramLine.items (line : ProgramLine) : List Datum :=
  line.statements.toList.flatMap Statement.items

namespace Program

/-- The data items of all lines, in the order of the lines. -/
def items (program : Program) : List Datum :=
  program.lines.toList.flatMap ProgramLine.items

/-- The data items of the lines that are numbered below `n`. -/
def itemsBefore (program : Program) (n : LineNumber) : List Datum :=
  (program.lines.toList.filter fun line => line.number < n).flatMap ProgramLine.items

/-- The data items of the line with number `n` and of those after it. -/
def itemsFrom (program : Program) (n : LineNumber) : List Datum :=
  (program.lines.toList.filter fun line => n ≤ line.number).flatMap ProgramLine.items

variable {program : Program} {m n : LineNumber} {statements : List Statement}

/-- In ascending order the lines below a number come first. -/
theorem filter_append_filter {lines : List ProgramLine}
    (ascending : lines.Pairwise fun a b => a.number < b.number) :
    lines.filter (fun line => line.number < n) ++ lines.filter (fun line => n ≤ line.number) =
      lines := by
  induction lines with
  | nil => rfl
  | cons line lines ih =>
    obtain ⟨above, rest⟩ := List.pairwise_cons.mp ascending
    by_cases below : line.number < n
    · simp [below, Nat.not_le.mpr below, ih rest]
    · have none : lines.filter (fun line => line.number < n) = [] := by
        rw [List.filter_eq_nil_iff]
        intro other inside
        have greater : line.number < other.number := above other inside
        rw [decide_eq_true_eq]
        exact fun less => below (Nat.lt_trans greater less)
      have whole := ih rest
      rw [none, List.nil_append] at whole
      simp [below, Nat.not_lt.mp below, none, whole]

/-- In a program with ascending lines, a line number divides the data items into those before it and
those from it on. -/
theorem items_eq_append (ascending : Ascending program.lines) (n : LineNumber) :
    program.items = program.itemsBefore n ++ program.itemsFrom n := by
  rw [itemsBefore, itemsFrom, ← List.flatMap_append, filter_append_filter ascending]
  rfl

/-- The position of a line in the data is that of the first entry of the index from this line on,
and the end of the data if there is none. -/
theorem dataPosition_eq (program : Program) (n : LineNumber) :
    program.dataPosition n =
      match program.dataStarts.toList.find? fun start => n ≤ start.1 with
      | some start => start.2
      | none => program.data.toList.length := by
  unfold dataPosition
  rw [Array.find?_toList]
  rfl

/-- What the statements of a line add to the index: entries for this line, the first of them where
the data ended before. -/
structure Starts (n position : Nat) (items : List Datum) (added : List (LineNumber × Nat)) :
    Prop where
  line : ∀ start ∈ added, start.1 = n
  first : ∀ start, added.head? = some start → start.2 = position
  none : added = [] → items = []

/-- The data of a line go behind those of the lines before it. -/
theorem foldl_addData (n : LineNumber) (statements : List Statement) (program : Program) :
    (statements.foldl (addData n) program).data.toList =
        program.data.toList ++ statements.flatMap Statement.items ∧
      ∃ added, (statements.foldl (addData n) program).dataStarts.toList =
          program.dataStarts.toList ++ added ∧
        Starts n program.data.size (statements.flatMap Statement.items) added := by
  induction statements generalizing program with
  | nil => exact ⟨by simp, [], by simp, ⟨nofun, nofun, fun _ => rfl⟩⟩
  | cons statement statements ih =>
    obtain ⟨data, added, starts, fits⟩ := ih (program.addData n statement)
    rw [List.foldl_cons, List.flatMap_cons]
    by_cases holds : ∃ column items, statement = .run (.data column items)
    · obtain ⟨column, items, rfl⟩ := holds
      refine ⟨?_, (n, program.data.size) :: added, ?_, ?_⟩
      · rw [data]
        simp [addData, Statement.items]
      · rw [starts]
        simp [addData]
      · refine ⟨?_, ?_, fun empty => absurd empty (List.cons_ne_nil _ _)⟩
        · intro start inside
          rcases List.mem_cons.mp inside with rfl | later
          · rfl
          · exact fits.line start later
        · rintro start ⟨⟩
          rfl
    · have plain : program.addData n statement = program := by
        unfold addData
        split
        · exact absurd ⟨_, _, rfl⟩ holds
        · rfl
      have empty : statement.items = [] := by
        unfold Statement.items
        split
        · exact absurd ⟨_, _, rfl⟩ holds
        · rfl
      rw [plain] at data starts fits
      rw [plain, empty, List.nil_append]
      exact ⟨data, added, starts, fits⟩

/-- The data and their index agree with the lines that have been read. -/
structure Indexed (program : Program) : Prop where
  data : program.data.toList = program.items
  starts : ∀ start ∈ program.dataStarts.toList, start.1 ∈ program.numbers
  position : ∀ n, program.dataPosition n = (program.itemsBefore n).length

/-- An empty program has no data and no index. -/
theorem indexed_empty : Indexed empty where
  data := rfl
  starts := nofun
  position _ := rfl

/-- An added line comes last. -/
theorem toList_lines_addLine (program : Program) (m : LineNumber) (statements : List Statement) :
    (program.addLine m statements).lines.toList =
      program.lines.toList ++ [⟨m, statements.toArray⟩] := by
  rw [lines_addLine, Array.toList_push]

/-- An added line adds its items to those before a number, if its own number is below that. -/
theorem itemsBefore_addLine (program : Program) (m n : LineNumber) (statements : List Statement) :
    (program.addLine m statements).itemsBefore n =
      program.itemsBefore n ++ if m < n then statements.flatMap Statement.items else [] := by
  rw [itemsBefore, itemsBefore, toList_lines_addLine, List.filter_append, List.flatMap_append]
  by_cases below : m < n
  · simp [below, ProgramLine.items]
  · simp [below]

/-- An added line adds its items to the data, and the entries to the index that say where they
start. -/
theorem data_addLine (program : Program) (m : LineNumber) (statements : List Statement) :
    (program.addLine m statements).data.toList =
        program.data.toList ++ statements.flatMap Statement.items ∧
      ∃ added, (program.addLine m statements).dataStarts.toList =
          program.dataStarts.toList ++ added ∧
        Starts m program.data.size (statements.flatMap Statement.items) added :=
  foldl_addData m statements program

/-- The first entry of the index at or after a line tells how many items stand before it. An entry
of an earlier line stays the first one, and otherwise it is one of the line that is added. -/
theorem Indexed.position_addLine (indexed : Indexed program)
    (above : ∀ k ∈ program.numbers, k < m) (statements : List Statement) (n : LineNumber) :
    (program.addLine m statements).dataPosition n =
      ((program.addLine m statements).itemsBefore n).length := by
  obtain ⟨data, added, index, fits⟩ := program.data_addLine m statements
  have size : (program.addLine m statements).data.toList.length =
      program.data.size + (statements.flatMap Statement.items).length := by
    rw [data, List.length_append, Array.length_toList]
  have before := indexed.position n
  rw [dataPosition_eq] at before
  rw [dataPosition_eq, index, List.find?_append, itemsBefore_addLine, List.length_append, ← before,
    size]
  cases found : program.dataStarts.toList.find? fun start => n ≤ start.1 with
  | some start =>
    have least : n ≤ start.1 := by simpa using List.find?_some found
    have known := above _ (indexed.starts start (List.mem_of_find?_eq_some found))
    have outside : ¬m < n := fun less => Nat.lt_asymm known (Nat.lt_of_lt_of_le less least)
    simp [outside]
  | none =>
    by_cases below : m < n
    · have unlisted : added.find? (fun start => n ≤ start.1) = none := by
        rw [List.find?_eq_none]
        intro start inside
        simpa [fits.line start inside] using below
      simp [unlisted, below]
    · cases added with
      | nil => simp [below, fits.none rfl]
      | cons start rest =>
        have listed : n ≤ start.1 := by
          rw [fits.line start List.mem_cons_self]
          exact Nat.not_lt.mp below
        simp [listed, below, fits.first start rfl]

/-- One more line, numbered above those before it. -/
theorem Indexed.addLine (indexed : Indexed program) (above : ∀ k ∈ program.numbers, k < m)
    (statements : List Statement) : Indexed (program.addLine m statements) := by
  obtain ⟨data, added, index, fits⟩ := program.data_addLine m statements
  refine ⟨?_, ?_, indexed.position_addLine above statements⟩
  · rw [data, indexed.data, items, items, toList_lines_addLine]
    simp [ProgramLine.items]
  · intro start inside
    rw [numbers, toList_lines_addLine, List.map_append, List.mem_append]
    rw [index, List.mem_append] at inside
    rcases inside with before | new
    · exact .inl (indexed.starts start before)
    · exact .inr (by simp [fits.line start new])

/-- Adding lines in ascending order keeps the index in agreement with the data. -/
theorem Indexed.addAll {lines : List (LineNumber × Line)} {result : Program}
    (indexed : Indexed program)
    (ascending : (program.numbers ++ lines.map Prod.fst).Pairwise (· < ·))
    (built : program.addAll lines = .ok result) : Indexed result := by
  induction lines generalizing program with
  | nil =>
    cases built
    exact indexed
  | cons entry lines ih =>
    obtain ⟨m, line⟩ := entry
    rw [Program.addAll] at built
    cases read : line.statements with
    | error fault =>
      rw [read] at built
      cases built
    | ok statements =>
      rw [read] at built
      have above : ∀ k ∈ program.numbers, k < m := fun k inside =>
        (List.pairwise_append.mp ascending).2.2 k inside m List.mem_cons_self
      refine ih (indexed.addLine above statements) ?_ built
      rw [numbers, toList_lines_addLine, List.map_append, List.append_assoc]
      exact ascending

/-- The data of a program that was loaded, and their index, agree with its lines. -/
theorem indexed_of_load {source : String} (loaded : load source = .ok program) :
    Indexed program ∧ Ascending program.lines := by
  obtain ⟨listing, entered, built⟩ := exists_of_bind_eq_ok loaded
  refine ⟨indexed_empty.addAll ?_ built, (lines_of_load entered loaded).2.1⟩
  exact listing.pairwise_numbers

/-- From the position of a line on stand the items of this line and of those after it. -/
theorem Indexed.drop_dataPosition (indexed : Indexed program) (ascending : Ascending program.lines)
    (n : LineNumber) :
    program.data.toList.drop (program.dataPosition n) = program.itemsFrom n := by
  rw [indexed.data, indexed.position, items_eq_append ascending n]
  exact List.drop_left

end Program

/-! ## Items and targets -/

namespace Datum

/-- The characters of an item, without its quotes. -/
def content : Datum → String
  | .quoted text | .unquoted text => text

/-- Whether an item stands in quotes. -/
def isQuoted : Datum → Bool
  | .quoted _ => true
  | .unquoted _ => false

/-- An item as it is named in a fault. -/
def shown : Datum → String
  | .quoted text => "\"" ++ text ++ "\""
  | .unquoted text => text

end Datum

namespace Target

/-- An item can be read into a target: any item into a text variable, and into a numeric one an item
that is not quoted and is a number. -/
def Admits (target : Target) (item : Datum) : Prop :=
  target.name.isText = true ∨
    item.isQuoted = false ∧ (Number.ofField? item.content.toList).isSome = true

instance (target : Target) (item : Datum) : Decidable (target.Admits item) :=
  inferInstanceAs (Decidable (_ ∨ _))

/-- What an item gives the target that it is read into. -/
def worth (target : Target) (item : Datum) : Value :=
  if target.name.isText then .string item.content
  else .number ((Number.ofField? item.content.toList).getD 0.0)

/-- What an item gives a target can be assigned to it. -/
theorem fits_worth (target : Target) (item : Datum) :
    (target.worth item).fits target.name = true := by
  unfold worth
  cases text : target.name.isText <;> simp [Value.fits, Value.isString, text]

/-- How a target receives a value that it can hold: a variable holds it from then on, and so does an
element, unless its subscripts cannot be evaluated or there is no such element. -/
def receive (target : Target) (value : Value) (s : Session) : Except Fault Unit × Session :=
  match target with
  | .scalar _ i => (.ok (), { s with memory := s.memory.put i.name value })
  | .element e =>
    match Session.evaluateAll e.subscripts s with
    | (.error fault, t) => (.error fault, t)
    | (.ok subscripts, t) =>
      match t.memory.storeElement e.name subscripts value with
      | .error fault => (.error fault, t)
      | .ok memory => (.ok (), { t with memory })

end Target

/-! ## Delivery -/

namespace Session

open Effect

section

variable {target : Target} {item : Datum}

/-- An item that can be read into a target is taken for what it gives the target. -/
theorem datumValue_of_admits (spelled : target.ident.Spelled) (admits : target.Admits item) :
    datumValue target.ident item = .ok (target.worth item) := by
  unfold datumValue Target.worth
  rw [show target.ident.isText = target.name.isText from spelled]
  cases text : target.name.isText with
  | true => cases item <;> rfl
  | false =>
    obtain ⟨unquoted, number⟩ : item.isQuoted = false ∧ _ := by
      simpa [Target.Admits, text] using admits
    cases item with
    | quoted s => cases unquoted
    | unquoted s =>
      obtain ⟨x, spells⟩ := Option.isSome_iff_exists.mp number
      have found : Number.ofField? s.toList = some x := spells
      simp [Datum.content, found]

/-- Any other item is refused. -/
theorem datumValue_of_not_admits (spelled : target.ident.Spelled) (bad : ¬target.Admits item) :
    datumValue target.ident item =
      .error { code := .typeMismatch, detail := "DATA " ++ item.shown } := by
  obtain ⟨number, wrong⟩ := not_or.mp bad
  have numeric : ¬target.ident.isText = true := by
    rw [show target.ident.isText = target.name.isText from spelled]
    exact number
  unfold datumValue
  cases item with
  | quoted s =>
    simp only [if_neg numeric, Datum.shown, String.append_assoc]
    rfl
  | unquoted s =>
    have none : Number.ofField? s.toList = none := by
      simpa [Datum.isQuoted, Datum.content] using wrong
    simp only [if_neg numeric, none, Datum.shown]

/-- A value that fits is assigned as its target receives it. -/
theorem assign_eq_receive {value : Value} (fits : value.fits target.name = true) (s : Session) :
    assign target value s = target.receive value s := by
  cases target with
  | scalar column i => exact store_eq fits s
  | element e =>
    rcases evaluated : evaluateAll e.subscripts s with ⟨_ | subscripts, t⟩
    · have failed : assign (.element e) value s = _ := bind_of_error evaluated
      simp only [failed, Target.receive, evaluated]
    · rw [assign_of_evaluated value evaluated]
      simp only [Target.receive, evaluated]
      cases t.memory.storeElement e.name subscripts value <;> rfl

end

/-- The session behind the next data item. -/
def pastDatum (s : Session) : Session :=
  { s with nextDatum := s.nextDatum + 1 }

/-- Gives items to targets, one each and in order, until a fault comes up. Also returns the items
that are left. -/
def serve : List Target → List Datum → Session → (Except Fault Unit × Session) × List Datum
  | [], items, s => ((.ok (), s), items)
  | _ :: _, [], s => ((.error { code := .outOfData }, s), [])
  | target :: targets, item :: items, s =>
    if target.Admits item then
      match target.receive (target.worth item) s.pastDatum with
      | (.error fault, t) => ((.error fault, t), items)
      | (.ok (), t) => serve targets items t
    else
      ((.error { code := .typeMismatch, detail := "DATA " ++ item.shown }, s.pastDatum), items)

section

variable {target : Target} {item : Datum} {value : Value} {fault : Fault} {s t : Session}

/-- An item that cannot be read into its target is used up. -/
theorem serve_of_unfit (bad : ¬target.Admits item) (targets : List Target) (items : List Datum) :
    serve (target :: targets) (item :: items) s =
      ((.error { code := .typeMismatch, detail := "DATA " ++ item.shown }, s.pastDatum),
        items) := by
  rw [serve, if_neg bad]

/-- So is an item whose target cannot be assigned to. -/
theorem serve_of_refused (admits : target.Admits item)
    (done : target.receive (target.worth item) s.pastDatum = (.error fault, t))
    (targets : List Target) (items : List Datum) :
    serve (target :: targets) (item :: items) s = ((.error fault, t), items) := by
  rw [serve, if_pos admits]
  simp only [done]

/-- After an item has been assigned it is the turn of the others. -/
theorem serve_of_assigned (admits : target.Admits item)
    (done : target.receive (target.worth item) s.pastDatum = (.ok (), t))
    (targets : List Target) (items : List Datum) :
    serve (target :: targets) (item :: items) s = serve targets items t := by
  rw [serve, if_pos admits]
  simp only [done]

end

/-- A `READ` takes the items that it uses from the front. Unless it fails, there is one for each of
its targets. -/
theorem exists_of_serve (targets : List Target) (items : List Datum) (s : Session) :
    ∃ taken, items = taken ++ (serve targets items s).2 ∧ taken.length ≤ targets.length ∧
      ((serve targets items s).1.1 = .ok () → taken.length = targets.length) := by
  fun_induction serve targets items s with
  | case1 items s => exact ⟨[], rfl, Nat.le_refl _, fun _ => rfl⟩
  | case2 target targets s => exact ⟨[], rfl, Nat.zero_le _, nofun⟩
  | case3 target targets item items s => exact ⟨[item], rfl, by simp, nofun⟩
  | case5 target targets item items s => exact ⟨[item], rfl, by simp, nofun⟩
  | case4 target targets item items s admits t done ih =>
    obtain ⟨taken, split, most, all⟩ := ih
    refine ⟨item :: taken, congrArg (item :: ·) split, Nat.succ_le_succ most, fun went => ?_⟩
    exact congrArg (· + 1) (all went)

/-- A target never fails to receive a value for want of data. -/
theorem code_ne_outOfData {target : Target} {value : Value} {s t : Session} {fault : Fault}
    (fits : value.fits target.name = true)
    (failed : target.receive value s = (.error fault, t)) : fault.code ≠ .outOfData := by
  intro same
  rw [← assign_eq_receive fits] at failed
  rcases (failsIn_assign target value).of_error failed with evaluated | rfl
  · rw [same] at evaluated
    cases evaluated
  · cases same

/-- The first one of some targets took an item, so that all items are used up only if those behind
it used up the others. -/
theorem exists_exhausted_cons (target : Target) (targets : List Target) (item : Datum)
    (items : List Datum) (s : Session) :
    (∃ served next unserved t, target :: targets = served ++ next :: unserved ∧
        serve served (item :: items) s = ((.ok (), t), [])) ↔
      ∃ served next unserved t, targets = served ++ next :: unserved ∧
        serve (target :: served) (item :: items) s = ((.ok (), t), []) := by
  constructor
  · rintro ⟨served, next, unserved, t, split, went⟩
    cases served with
    | nil => cases went
    | cons first served =>
      obtain ⟨rfl, rest⟩ := List.cons_eq_cons.mp split
      exact ⟨served, next, unserved, t, rest, went⟩
  · rintro ⟨served, next, unserved, t, rfl, went⟩
    exact ⟨target :: served, next, unserved, t, rfl, went⟩

/-- A `READ` fails for want of data exactly if some of its targets used up the items and there is a
target behind them. -/
theorem outOfData_serve_iff (targets : List Target) (items : List Datum) (s : Session) :
    (∃ fault, (serve targets items s).1.1 = .error fault ∧ fault.code = .outOfData) ↔
      ∃ served next unserved t, targets = served ++ next :: unserved ∧
        serve served items s = ((.ok (), t), []) := by
  fun_induction serve targets items s with
  | case1 items s => simp
  | case2 target targets s =>
    exact ⟨fun _ => ⟨[], target, targets, s, rfl, rfl⟩, fun _ => ⟨_, rfl, rfl⟩⟩
  | case3 target targets item items s admits fault t done =>
    have other := code_ne_outOfData (target.fits_worth item) done
    rw [exists_exhausted_cons]
    simp [serve_of_refused admits done, other]
  | case4 target targets item items s admits t done ih =>
    rw [ih, exists_exhausted_cons]
    simp only [serve_of_assigned admits done]
  | case5 target targets item items s bad =>
    rw [exists_exhausted_cons]
    simp [serve_of_unfit bad]

variable {program : Program} {config : Config} {s : Session}

/-- `READ` gives the items from the next one on to its targets, and stands before the first one that
is left then. -/
theorem serve_drop (sound : Sound program config s) {targets : List Target}
    (spelled : ∀ target ∈ targets, target.ident.Spelled) :
    serve targets (program.data.toList.drop s.nextDatum) s =
      (read targets s, program.data.toList.drop (read targets s).2.nextDatum) := by
  induction targets generalizing s with
  | nil => rfl
  | cons target targets ih =>
    have head : s.program.data[s.nextDatum]? = (program.data.toList.drop s.nextDatum).head? := by
      rw [List.head?_drop, Array.getElem?_toList, sound.program_eq]
    have tail : (program.data.toList.drop s.nextDatum).tail =
        program.data.toList.drop s.pastDatum.nextDatum := List.tail_drop
    cases ahead : program.data.toList.drop s.nextDatum with
    | nil =>
      rw [ahead] at head
      have failed : read (target :: targets) s = (.error { code := .outOfData }, s) :=
        bind_of_error (takeDatum_of_none head)
      rw [failed, serve, ahead]
    | cons item items =>
      rw [ahead] at head tail
      have rest : items = program.data.toList.drop s.pastDatum.nextDatum := tail
      have taken : takeDatum s = (.ok item, s.pastDatum) := takeDatum_of_some head
      have passed : Sound program config s.pastDatum := by
        have step := (obeys_takeDatum.outcome sound).1
        rwa [taken] at step
      obtain ⟨here, others⟩ := List.forall_mem_cons.mp spelled
      rw [read, bind_of_ok taken]
      -- The item is used up in either case.
      by_cases admits : target.Admits item
      · rw [datumValue_of_admits here admits, bind_of_ok (x := Effect.ofExcept _) rfl]
        obtain ⟨soundAfter, only, -⟩ := (obeys_assign target (target.worth item)).outcome passed
        rcases done : assign target (target.worth item) s.pastDatum with ⟨result, t⟩
        rw [done] at soundAfter only
        have kept : t.nextDatum = s.pastDatum.nextDatum := only .nextDatum (by decide)
        rw [← kept] at rest
        have received := done
        rw [assign_eq_receive (target.fits_worth item)] at received
        cases result with
        | error fault => rw [serve_of_refused admits received, bind_of_error done, rest]
        | ok _ =>
          rw [serve_of_assigned admits received, bind_of_ok done, rest]
          exact ih soundAfter others
      · rw [datumValue_of_not_admits here admits, serve_of_unfit admits,
          bind_of_error (x := Effect.ofExcept _) rfl, rest]

/-- `RESTORE` with a line stands before the items of this line and of those after it, if there is
such a line. -/
theorem drop_restore (indexed : program.Indexed) (ascending : Program.Ascending program.lines)
    (sound : Sound program config s) (n : LineNumber) :
    program.data.toList.drop (restore (some n) s).2.nextDatum =
      if n ∈ program.numbers then program.itemsFrom n
      else program.data.toList.drop s.nextDatum := by
  have known : (s.program.findLine? n).isSome ↔ n ∈ program.numbers := by
    rw [sound.program_eq]
    exact Program.findLine?_isSome_iff ascending
  cases found : s.program.findLine? n with
  | none =>
    have stays : (restore (some n) s).2 = s :=
      congrArg Prod.snd (bind_of_error (findLine_of_none found))
    rw [stays, if_neg fun inside => by simpa [found] using known.mpr inside]
  | some a =>
    have moves : (restore (some n) s).2 = { s with nextDatum := s.program.dataPosition n } :=
      congrArg Prod.snd (bind_of_ok (findLine_of_some found))
    rw [moves, if_pos (known.mp (by rw [found]; rfl)), sound.program_eq]
    exact indexed.drop_dataPosition ascending n

end Session

/-! ## Runs -/

/-- What is left of the data after a statement, of those that were left before it. -/
def Deed.unread (program : Program) (items : List Datum) (deed : Deed) : List Datum :=
  match deed.statement with
  | .run (.clear _) => program.items
  | .run (.restore _ none) => program.items
  | .run (.restore _ (some n)) => if n ∈ program.numbers then program.itemsFrom n else items
  | .run (.read _ targets) => (Session.serve targets items deed.session).2
  | _ => items

/-- What is left of the data after some statements, of which there were all at the start. -/
def Program.unread (program : Program) (deeds : List Deed) : List Datum :=
  deeds.foldl (Deed.unread program) program.items

section Runs

open Session

variable {program : Program} {config : Config} {start s : Session} {deeds : List Deed}

/-- What is left of the data is reckoned one statement after the other. -/
theorem Program.unread_append (program : Program) (deeds : List Deed) (deed : Deed) :
    program.unread (deeds ++ [deed]) = deed.unread program (program.unread deeds) :=
  List.foldl_append

/-- The data from the next item on are what is left of them. -/
theorem Deed.Sound.unread {deed : Deed} (formed : program.Formed) (tagged : program.Tagged)
    (indexed : program.Indexed) (ascending : Program.Ascending program.lines)
    (sound : deed.Sound program config) :
    deed.unread program (program.data.toList.drop deed.session.nextDatum) =
      program.data.toList.drop deed.left.nextDatum := by
  have only : Part.nextDatum ∉ deed.statement.footprint →
      deed.left.nextDatum = deed.session.nextDatum := fun outside =>
    sound.only formed .nextDatum outside
  obtain ⟨session, statement⟩ := deed
  cases statement with
  | branch | skip =>
    rw [only (by simp [Statement.footprint])]
    rfl
  | run command =>
    cases command with
    | clear column => exact indexed.data.symm
    | restore column line =>
      cases line with
      | none => exact indexed.data.symm
      | some n =>
        have there := drop_restore indexed ascending sound.session n
        rw [← andNext_snd] at there
        exact there.symm
    | read column targets =>
      have served := congrArg Prod.snd (serve_drop sound.session (tagged _ _ sound.stands))
      rw [← andNext_snd] at served
      exact served
    | _ =>
      rw [only (by simp [Statement.footprint, Command.footprint])]
      rfl

/-- A `READ` goes as the serving of its targets does. -/
theorem Deed.Sound.perform_read {deed : Deed} {column : Span} {targets : List Target}
    (tagged : program.Tagged) (sound : deed.Sound program config)
    (reads : deed.statement = .run (.read column targets)) :
    let served := serve targets (program.data.toList.drop deed.session.nextDatum) deed.session
    perform deed.place deed.statement deed.session =
      (served.1.1.map fun _ => .next, served.1.2) := by
  intro served
  have stands := sound.stands
  rw [reads] at stands
  have step : served.1 = read targets deed.session :=
    congrArg Prod.fst (serve_drop sound.session (tagged _ _ stands))
  rw [reads, step]
  exact andNext_apply (read targets) deed.session

/-- Throughout a run, what is left of the data are the items from the position of the session on. -/
theorem Leads.unread (begins : Begins program config start) (tagged : program.Tagged)
    (indexed : program.Indexed) (ascending : Program.Ascending program.lines)
    (fresh : start.nextDatum = 0) (leads : Leads start deeds s) :
    program.unread deeds = program.data.toList.drop s.nextDatum := by
  induction leads with
  | start only =>
    rw [only .nextDatum (by decide), fresh]
    exact indexed.data.symm
  | @deed deeds deed target s t before performed goes only ih =>
    have sound := Deed.sound_of_deed? (before.standing begins).1 performed
    have same : deed.session.nextDatum = s.nextDatum := by rw [(deed?_eq_some.mp performed).2.2]
    have kept : t.nextDatum = deed.left.nextDatum := only .nextDatum (by decide)
    rw [Program.unread_append, ih, kept, ← same]
    exact sound.unread begins.formed tagged indexed ascending

/-- The data of a program that has been loaded are the items of all its lines in ascending order,
and a line number is sent to the number of items on the lines below it. Whatever a host does with a
run of the program, each `READ` serves its targets from what the statements before it have left of
the data, and takes what it uses from the front: one item for each target unless it fails. It fails
for want of data exactly if some of its targets have used up what was left and there is a target
behind them. -/
theorem data_in_order {source : String} (loaded : Program.load source = .ok program) :
    program.numbers.Pairwise (· < ·) ∧
    program.data.toList = program.items ∧
    (∀ n, program.dataPosition n = (program.itemsBefore n).length) ∧
    ∀ config clock acts front deed back column targets,
      ((Session.start program config clock).history.run acts).deeds = front ++ deed :: back →
      deed.statement = .run (.read column targets) →
      let items := program.unread front
      let served := serve targets items deed.session
      deed.result = served.1.1.map (fun _ => .next) ∧ deed.left = served.1.2 ∧
      (∃ taken, items = taken ++ program.unread (front ++ [deed]) ∧
        taken.length ≤ targets.length ∧
        (deed.result = .ok .next → taken.length = targets.length)) ∧
      ((∃ fault, deed.result = .error fault ∧ fault.code = .outOfData) ↔
        ∃ first next rest t, targets = first ++ next :: rest ∧
          serve first items deed.session = ((.ok (), t), [])) := by
  obtain ⟨indexed, ascending⟩ := Program.indexed_of_load loaded
  have tagged := Program.tagged_of_load loaded
  refine ⟨List.pairwise_map.mpr ascending, indexed.data, indexed.position, ?_⟩
  intro config clock acts front deed back column targets whole reads items served
  have begins : Begins program config (Session.start program config clock) :=
    ⟨Program.formed_of_load loaded, standing_start program config clock, rfl, rfl⟩
  have account := account_run begins acts
  rw [whole] at account
  -- What the data reading is about is one statement of the run: what has led to it fixes the items
  -- that are left, and its own session serves them.
  obtain ⟨u, leads, performed, -⟩ := account.split begins
  have sound := Deed.sound_of_deed? (leads.standing begins).1 performed
  have same : deed.session.nextDatum = u.nextDatum := by rw [(deed?_eq_some.mp performed).2.2]
  have ahead : items = program.data.toList.drop deed.session.nextDatum := by
    rw [same]
    exact leads.unread begins tagged indexed ascending rfl
  have performs := sound.perform_read tagged reads
  rw [← ahead] at performs
  have result : deed.result = served.1.1.map fun _ => .next := congrArg Prod.fst performs
  have left : program.unread (front ++ [deed]) = served.2 := by
    rw [Program.unread_append, Deed.unread, reads]
  obtain ⟨taken, split, most, all⟩ := exists_of_serve targets items deed.session
  refine ⟨result, congrArg Prod.snd performs, ⟨taken, ?_, most, fun goes => all ?_⟩, ?_⟩
  · rw [left]
    exact split
  · rw [result] at goes
    show served.1.1 = .ok ()
    cases went : served.1.1 with
    | ok _ => rfl
    | error fault =>
      rw [went] at goes
      cases goes
  · rw [← outOfData_serve_iff, result]
    show _ ↔ ∃ fault, served.1.1 = .error fault ∧ fault.code = .outOfData
    cases served.1.1 with
    | ok _ => simp [Except.map]
    | error fault => simp [Except.map]

/-- A program has the lines and the data items of the one below, and the third statement of its run
is a `READ` that runs out of data. Before it three variables hold what was read, and after it the
first of its targets does. -/
def runsOutOfData (program : Program) : Bool :=
  program.numbers == [10, 20, 22, 25] &&
    program.items == [.unquoted "3", .quoted "y", .unquoted "7"] &&
    (program.itemsBefore 22).length == 2 &&
    match ((Session.start program { seed := 0 } ⟨2000, 1, 1, 0, 0, 0⟩).history.run
      [.execute 9]).deeds with
    | [a, b, ⟨session, .run (.read column targets)⟩] =>
      program.unread [a] == [] && program.unread [a, b] == [.unquoted "7"] &&
        session.memory.fetch "A" == .number 3.0 && session.memory.fetch "B$" == .string "y" &&
        session.memory.fetch "C" == .number 7.0 &&
        (Deed.left ⟨session, .run (.read column targets)⟩).memory.fetch "D" == .number 7.0 &&
        match Deed.result ⟨session, .run (.read column targets)⟩ with
        | .error fault => fault.code == .outOfData
        | .ok _ => false
    | _ => false

/-- A line that is entered twice, two `DATA` on one line, and one in a branch that is not taken. All
items are read, and then those from a line without data on, of which the last `READ` wants one more
than there are: it delivers the last item once more before it fails. -/
theorem data_in_order_restored :
    let source := "10 READ A,B$,C:RESTORE 22:READ D,E\n20 DATA 1\n22 REM\n" ++
      "25 IF 0 THEN DATA 7\n20 DATA 3:DATA \"y\""
    ∃ program, Program.load source = .ok program ∧ program.numbers = [10, 20, 22, 25] ∧
      program.items = [.unquoted "3", .quoted "y", .unquoted "7"] ∧
      program.data.toList = [.unquoted "3", .quoted "y", .unquoted "7"] ∧
      program.dataPosition 22 = 2 ∧ (program.itemsBefore 22).length = 2 ∧
      ∃ a b c column targets,
        ((Session.start program { seed := 0 } ⟨2000, 1, 1, 0, 0, 0⟩).history.run
          [.execute 9]).deeds = [a, b, c] ∧
        c.statement = .run (.read column targets) ∧
        program.unread [a] = [] ∧ program.unread [a, b] = [.unquoted "7"] ∧
        c.session.memory.fetch "A" = .number 3.0 ∧ c.session.memory.fetch "B$" = .string "y" ∧
        c.session.memory.fetch "C" = .number 7.0 ∧
        (serve targets (program.unread [a, b]) c.session).1.2.memory.fetch "D" = .number 7.0 ∧
        ∃ first next rest t, targets = first ++ next :: rest ∧
          serve first (program.unread [a, b]) c.session = ((.ok (), t), []) := by
  intro source
  obtain ⟨program, loaded, tested⟩ : ∃ program,
      Program.load source = .ok program ∧ runsOutOfData program = true :=
    exists_ok_of_any (by decide +kernel)
  obtain ⟨-, data, position, reads⟩ := data_in_order loaded
  simp only [runsOutOfData, Bool.and_eq_true, beq_iff_eq] at tested
  obtain ⟨⟨⟨numbers, items⟩, before⟩, ran⟩ := tested
  split at ran
  · next a b session column targets deeds =>
    simp only [Bool.and_eq_true, beq_iff_eq] at ran
    obtain ⟨⟨⟨⟨⟨⟨none, last⟩, three⟩, text⟩, seven⟩, again⟩, ends⟩ := ran
    split at ends
    · next fault failed =>
      rw [beq_iff_eq] at ends
      obtain ⟨-, left, -, short⟩ := reads _ _ _ [a, b] _ [] column targets deeds rfl
      rw [left] at again
      exact ⟨program, loaded, numbers, items, data.trans items, (position 22).trans before, before,
        a, b, _, column, targets, deeds, rfl, none, last, three, text, seven, again,
        short.mp ⟨fault, failed, ends⟩⟩
    · cases ends
  · cases ran

end Runs

end NumberedBasic
