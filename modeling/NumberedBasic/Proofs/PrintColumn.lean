import NumberedBasic.Proofs.ParameterBinding
import NumberedBasic.Proofs.WrittenText

/-!
# The print column

A session does not look at the text it has written to find the column at which printing goes on: it
counts the characters as they are written, starts again at zero with each line feed among them, and
also when it takes a reply, since the host has ended the line then. All that writes keeps the count
in step with the text (`Tracks`), whether it succeeds or fails. So the column is the length of the
last line of the text that was written since a reply was last taken (`Leads.column`,
`Account.column`), and the blanks of a comma or a `TAB` end where they should (`printItem_comma`,
`printItem_tab`).
-/

set_option autoImplicit false

namespace NumberedBasic

/-- The number of characters of a text after its last line feed. -/
def lineLength (text : String) : Nat :=
  (text.toList.reverse.takeWhile (· != '\n')).length

namespace Session

open Effect

variable {program : Program} {config : Config} {s t : Session}

/-! ## Counting characters -/

/-- The column after two texts is reckoned from the column after the first one. -/
theorem columnAfter_append (column : Nat) (cs ds : List Char) :
    columnAfter column (cs ++ ds) = columnAfter (columnAfter column cs) ds :=
  List.foldl_append

/-- The characters are counted from the start of the line on which the text ends. -/
theorem columnAfter_zero (text : String) : columnAfter 0 text.toList = lineLength text := by
  unfold lineLength
  induction text.toList using List.reverseRecOn with
  | nil => rfl
  | append_singleton cs c ih =>
      rw [columnAfter_append, ih]
      by_cases feed : c = '\n'
      · subst feed
        simp [columnAfter]
      · simp [columnAfter, feed]

/-- Blanks move the column on by their number. -/
theorem columnAfter_blanks (column count : Nat) :
    columnAfter column (List.replicate count ' ') = column + count := by
  induction count generalizing column with
  | zero => rfl
  | succ count ih =>
      rw [List.replicate_succ]
      show columnAfter (column + 1) (List.replicate count ' ') = _
      rw [ih]
      omega

/-- Text has been written behind what was there, and the column has kept up with it. -/
def Tracks (s t : Session) : Prop :=
  ∃ text, t.output = s.output ++ text ∧ t.column = columnAfter s.column text.toList

instance : IsPreorder Session Tracks where
  refl s := ⟨"", String.append_empty.symm, rfl⟩
  trans := by
    rintro s t u ⟨first, output, column⟩ ⟨second, output', column'⟩
    refine ⟨first ++ second, ?_, ?_⟩
    · rw [output', output, String.append_assoc]
    · rw [column', column, String.toList_append, columnAfter_append]

/-- The column follows from the text that has been written. -/
theorem Tracks.column_eq {text : String} (tracks : Tracks s t)
    (written : t.output = s.output ++ text) : t.column = columnAfter s.column text.toList := by
  obtain ⟨other, output, column⟩ := tracks
  rw [output, String.append_right_inj] at written
  rw [column, written]

/-- All that writes text lets the column keep up with it. -/
theorem writing_tracks : Writing program config Tracks where
  write text := Ensures.of_outcome fun _ sound =>
    ⟨((obeys_write text).outcome sound).1, ⟨text, rfl, rfl⟩, trivial⟩
  frame s t only := by
    have output : t.output = s.output := only .output (by decide)
    have column : t.column = s.column := only .column (by decide)
    exact ⟨"", by rw [output, String.append_empty], column⟩

/-! ## Items of a `PRINT` -/

/-- Writing a text adds it to the output and moves the column. -/
theorem write_eq (text : String) (s : Session) :
    write text s =
      (.ok (), { s with output := s.output ++ text, column := columnAfter s.column text.toList }) :=
  rfl

/-- Writing blanks adds them to the output and moves the column by their number. -/
theorem writeBlanks_eq (count : Nat) (s : Session) :
    writeBlanks count s =
      (.ok (), { s with output := s.output ++ blanks count, column := s.column + count }) := by
  rw [writeBlanks, write_eq, String.toList_ofList, columnAfter_blanks]
  rfl

/-- A comma goes on to the next column that starts a zone. -/
theorem printItem_comma (column : Span) (s : Session) :
    ∃ count, 1 ≤ count ∧ count ≤ max s.config.printZone 1 ∧
      max s.config.printZone 1 ∣ s.column + count ∧
      printItem (.comma column) s =
        (.ok (), { s with output := s.output ++ blanks count, column := s.column + count }) := by
  have positive : 0 < max s.config.printZone 1 := by omega
  have below := Nat.mod_lt s.column positive
  refine ⟨max s.config.printZone 1 - s.column % max s.config.printZone 1, by omega, by omega, ?_,
    writeBlanks_eq _ s⟩
  -- the blanks fill up the zone in which the column stands
  have whole := Nat.div_add_mod s.column (max s.config.printZone 1)
  refine ⟨s.column / max s.config.printZone 1 + 1, ?_⟩
  rw [Nat.mul_add, Nat.mul_one]
  omega

/-- The blanks of a `TAB` end at its column. -/
theorem TabStop.exists_count {x : Float} {n : ℕ} (stop : TabStop x n) (s : Session) :
    ∃ count, (if s.column < n then s.column else 0) + count + 1 = n ∧
      Session.tabTo x s =
        (.ok (),
          { s with
            output := s.output ++ ((if s.column < n then "" else "\n") ++ blanks count)
            column := n - 1 }) := by
  have low : 1 ≤ n := stop.1
  rw [stop.tabTo]
  by_cases before : s.column < n
  · refine ⟨n - 1 - s.column, by rw [if_pos before]; omega, ?_⟩
    have reached : s.column + (n - 1 - s.column) = n - 1 := by omega
    rw [if_neg (by omega), if_pos before, writeBlanks_eq, reached, String.empty_append]
  · refine ⟨n - 1, by rw [if_neg before]; omega, ?_⟩
    rw [if_pos (by omega), if_neg before, write_eq, writeBlanks_eq, ← String.append_assoc]
    simp [columnAfter]

/-- Evaluating a number is quiet when it yields one. -/
theorem completes_evaluateNumber (e : Expr) : Completes Quiet (evaluateNumber e) :=
  (completes_evaluate e).bind fun _ _ => Completes.ofExcept _

/-- A `TAB` goes on to its column, on a new line if that has been passed. -/
theorem printItem_tab {argument : Expr} {x : Float} {q : ℚ} {n : ℕ}
    (evaluated : evaluateNumber argument s = (.ok x, t)) (value : Number.value? x = some q)
    (part : Number.truncate q = n) (low : 1 ≤ n) (high : n ≤ 255) (column : Span) {i : Ident}
    (named : i.name = "TAB") :
    t.output = s.output ∧ t.column = s.column ∧
      ∃ count, (if s.column < n then s.column else 0) + count + 1 = n ∧
        printItem (.value (.call column i [argument])) s =
          (.ok (),
            { t with
              output := s.output ++ ((if s.column < n then "" else "\n") ++ blanks count)
              column := n - 1 }) := by
  have quiet := ((completes_evaluateNumber argument).of_ok evaluated).only
  have output : t.output = s.output := quiet .output (by decide)
  have sameColumn : t.column = s.column := quiet .column (by decide)
  have stop : TabStop x n := ⟨low, high, by rw [value, Option.map_some, part]⟩
  obtain ⟨count, exact, done⟩ := stop.exists_count t
  rw [sameColumn] at exact done
  refine ⟨output, sameColumn, count, exact, ?_⟩
  have tab : tabArgument? (.call column i [argument]) = some argument := if_pos named
  rw [printItem, tab]
  show (evaluateNumber argument >>= tabTo) s = _
  rw [bind_of_ok evaluated, done, output]

/-- A list after which the line is ended: it is empty, or its last item is a value. -/
def Closing (items : List PrintItem) : Prop :=
  items = [] ∨ ∃ e, items.getLast? = some (.value e)

/-- The flag of a list is set exactly if the line is ended after it. -/
theorem closesLine_iff (items : List PrintItem) : closesLine items = true ↔ Closing items := by
  unfold closesLine Closing
  cases last : items.getLast? with
  | none => simp [List.getLast?_eq_none_iff.mp last]
  | some item =>
      have full : items ≠ [] := by
        rintro rfl
        cases last
      cases item <;> simp [full]

/-- The flag that is set anew with each item tells in the end whether the line is ended. -/
theorem print_of_ok {items : List PrintItem} (done : print items s = (.ok (), t)) :
    ∃ ends u, printItems true items s = (.ok ends, u) ∧ (ends = true ↔ Closing items) ∧
      (Closing items → t = { u with output := u.output ++ "\n", column := 0 }) ∧
      (¬Closing items → t = u) := by
  obtain ⟨ends, u, printed, rest⟩ := exists_of_bind done
  have flag : ends = true ↔ Closing items := by rw [eq_closesLine printed, closesLine_iff]
  refine ⟨ends, u, printed, flag, ?_, ?_⟩
  · intro closing
    rw [if_pos (flag.mpr closing), write_eq] at rest
    cases rest
    rfl
  · intro goesOn
    rw [if_neg fun ends => goesOn (flag.mp ends)] at rest
    cases rest
    rfl

end Session

open Session Effect

/-! ## The column of a run -/

variable {program : Program} {config : Config} {start s : Session} {deeds : List Deed}

/-- The statement uses up a reply. -/
def Deed.takesReply (deed : Deed) : Bool :=
  match deed.statement with
  | .run (.input ..) => deed.session.reply.isSome
  | _ => false

/-- The text that some statements have written since the last of them that took a reply. -/
def textSinceReply (deeds : List Deed) : String :=
  deeds.foldl (fun text deed => if deed.takesReply then deed.text else text ++ deed.text) ""

/-- A statement that takes a reply starts the text anew, and any other adds to it. -/
theorem textSinceReply_append (deeds : List Deed) (deed : Deed) :
    textSinceReply (deeds ++ [deed]) =
      if deed.takesReply then deed.text else textSinceReply deeds ++ deed.text := by
  simp [textSinceReply]

/-- What a statement writes is counted from the column it is performed at, or from the start of a
line if it takes a reply. -/
theorem Deed.Sound.column {deed : Deed} (formed : program.Formed)
    (sound : deed.Sound program config) :
    deed.left.column =
      columnAfter (if deed.takesReply then 0 else deed.session.column) deed.text.toList := by
  have only := sound.only formed .column
  have written := sound.output formed
  have covers := Program.covers_of_statementAt? sound.stands
  obtain ⟨session, statement⟩ := deed
  cases statement with
  | branch | skip => exact only (by simp [Statement.footprint])
  | run command =>
      cases command with
      | print column items =>
          have tracks := ((writing_tracks.obeys_print items).outcome sound.session).2.1
          rw [← andNext_snd] at tracks
          exact tracks.column_eq written
      | input column prompt targets =>
          cases supplied : session.reply with
          | none =>
              have same : (input session.place prompt targets session).2 = session := by
                rw [input_of_none session.place prompt targets supplied]
              show (input session.place prompt targets session).2.column = _
              simp [takesReply, text, supplied, same, columnAfter]
          | some reply =>
              -- The reply is taken first, which puts the terminal at the start of a line.
              have left : Deed.left ⟨session, .run (.input column prompt targets)⟩ = _ :=
                congrArg Prod.snd (input_of_some session.place prompt targets supplied)
              have takes : takesReply ⟨session, .run (.input column prompt targets)⟩ = true := by
                rw [takesReply, supplied]
                rfl
              have tracks := ((writing_tracks.obeys_useReply covers targets reply).outcome
                sound.session.takeReply).2.1
              rw [if_pos takes]
              rw [left] at written ⊢
              exact tracks.column_eq written
      | _ => exact only (by simp [Statement.footprint, Command.footprint])

/-- The length of a last line is reckoned like a column, from the one before. -/
theorem lineLength_append (first second : String) :
    lineLength (first ++ second) = columnAfter (lineLength first) second.toList := by
  rw [← columnAfter_zero, ← columnAfter_zero, String.toList_append, columnAfter_append]

/-- If the column is right before a statement, it is right after it. -/
theorem column_of_deed? {deed : Deed} (formed : program.Formed)
    (standing : Standing program config s) (performed : s.deed? = some deed)
    (before : s.column = lineLength (textSinceReply deeds)) :
    deed.left.column = lineLength (textSinceReply (deeds ++ [deed])) := by
  have same : deed.session.column = s.column := by rw [(deed?_eq_some.mp performed).2.2]
  rw [(Deed.sound_of_deed? standing performed).column formed, textSinceReply_append, same, before]
  cases deed.takesReply with
  | true => exact columnAfter_zero _
  | false => exact (lineLength_append _ _).symm

/-- Throughout a run, the column is the length of the line that has been written since the last
reply. -/
theorem Leads.column (begins : Begins program config start) (fresh : start.column = 0)
    (leads : Leads start deeds s) : s.column = lineLength (textSinceReply deeds) := by
  induction leads with
  | start only =>
      rw [only .column (by decide), fresh]
      rfl
  | @deed deeds deed target s t before performed goes only ih =>
      have kept : t.column = deed.left.column := only .column (by decide)
      rw [kept, column_of_deed? begins.formed (before.standing begins).1 performed ih]

/-- The column is right at the end of a run too, however it has ended. -/
theorem Account.column (begins : Begins program config start) (fresh : start.column = 0)
    (account : Account start deeds s) : s.column = lineLength (textSinceReply deeds) := by
  cases account with
  | going leads => exact leads.column begins fresh
  | @halted _ before _ leads nothing only =>
      have kept : s.column = before.column := only .column (by decide)
      rw [kept, leads.column begins fresh]
  | @ended _ deed _ before _ leads performed ends only =>
      have kept : s.column = deed.left.column := only .column (by decide)
      rw [kept, column_of_deed? begins.formed (leads.standing begins).1 performed
        (leads.column begins fresh)]

/-- The column at which printing goes on is the length of the last line of what has been written
since the start or since a reply was last taken: whatever a host has done with a program that has
been loaded, and also between the items of each `PRINT` that was performed. A comma writes blanks up
to the next multiple of the zone, at least one and at most a zone of them. `TAB` writes blanks up to
its column, behind a line feed if that has been passed, and the blanks are never fewer than none. A
`PRINT` whose items have been printed ends the line exactly if its list is empty or its last item is
a value. -/
theorem print_column {source : String} {clock : Clock}
    (loaded : Session.load source config clock = .ok s) (acts : List Act) :
    let history := s.history.run acts
    history.session.column = lineLength (textSinceReply history.deeds) ∧
    (∀ front deed back, history.deeds = front ++ deed :: back →
      deed.left.output = deed.session.output ++ deed.text ∧
      ∀ column items more, deed.statement = .run (.print column (items ++ more)) →
        (printItems true items deed.session).2.output =
          deed.session.output ++ itemsText deed.session items ∧
        (printItems true items deed.session).2.column =
          lineLength (textSinceReply front ++ itemsText deed.session items)) ∧
    (∀ column t, ∃ count, 1 ≤ count ∧ count ≤ max t.config.printZone 1 ∧
      max t.config.printZone 1 ∣ t.column + count ∧
      printItem (.comma column) t =
        (.ok (), { t with output := t.output ++ blanks count, column := t.column + count })) ∧
    (∀ column i argument t x u q, ∀ n : ℕ, i.name = "TAB" →
      evaluateNumber argument t = (.ok x, u) →
      Number.value? x = some q → Number.truncate q = n → 1 ≤ n → n ≤ 255 →
      u.output = t.output ∧ u.column = t.column ∧
        ∃ count, (if t.column < n then t.column else 0) + count + 1 = n ∧
          printItem (.value (.call column i [argument])) t =
            (.ok (),
              { u with
                output := t.output ++ ((if t.column < n then "" else "\n") ++ blanks count)
                column := n - 1 })) ∧
    ∀ items t u, print items t = (.ok (), u) →
      ∃ ends v, printItems true items t = (.ok ends, v) ∧ (ends = true ↔ Closing items) ∧
        (Closing items → u = { v with output := v.output ++ "\n", column := 0 }) ∧
        (¬Closing items → u = v) := by
  intro history
  obtain ⟨program, -, started, begins⟩ := exists_begins loaded
  have fresh : s.column = 0 := by
    rw [started]
    rfl
  have account : Account s history.deeds history.session := account_run begins acts
  refine ⟨account.column begins fresh, ?_, printItem_comma, ?_, fun _ _ _ => print_of_ok⟩
  · intro front deed back whole
    rw [whole] at account
    obtain ⟨u, leads, performed, -⟩ := account.split begins
    have sound := Deed.sound_of_deed? (leads.standing begins).1 performed
    refine ⟨sound.output begins.formed, fun column items more _ => ?_⟩
    have written := output_printItems sound.session true items
    have tracks := ((writing_tracks.obeys_printItems true items).outcome sound.session).2.1
    have same : deed.session.column = u.column := by rw [(deed?_eq_some.mp performed).2.2]
    have before : u.column = lineLength (textSinceReply front) := leads.column begins fresh
    refine ⟨written, ?_⟩
    rw [lineLength_append, ← before, ← same]
    exact tracks.column_eq written
  · intro column i argument t x u q n named evaluated value part low high
    exact printItem_tab evaluated value part low high column named

/-- A zone of five, a line feed inside a text, a reply with a field too many and a `TAB` to a column
that has been passed. -/
theorem print_column_passed :
    let source := "10 PRINT \"AB\",\"C\";CHR$(10);\"DE\";\n20 INPUT X\n30 PRINT \"FGH\";TAB(2.9);X;"
    let acts := [.execute 9, .execute 9, .answer "7,8", .execute 9, .execute 9]
    ∃ s, Session.load source { seed := 0, printZone := 5 } ⟨2000, 1, 1, 0, 0, 0⟩ = .ok s ∧
      (s.history.run acts).written = "AB   C\nDE?EXTRA IGNORED\nFGH\n 7" ∧
      textSinceReply (s.history.run acts).deeds = "?EXTRA IGNORED\nFGH\n 7" ∧
      (s.history.run acts).session.column = 2 ∧
      lineLength (textSinceReply (s.history.run acts).deeds) = 2 := by
  intro source acts
  let test (s : Session) : Bool :=
    let history := s.history.run acts
    history.written == "AB   C\nDE?EXTRA IGNORED\nFGH\n 7" &&
      textSinceReply history.deeds == "?EXTRA IGNORED\nFGH\n 7" && history.session.column == 2
  obtain ⟨s, loaded, tested⟩ : ∃ s,
      Session.load source { seed := 0, printZone := 5 } ⟨2000, 1, 1, 0, 0, 0⟩ = .ok s ∧
        test s = true :=
    exists_ok_of_any (by decide +kernel)
  simp only [test, Bool.and_eq_true, beq_iff_eq] at tested
  obtain ⟨⟨written, since⟩, column⟩ := tested
  obtain ⟨counted, -⟩ := print_column loaded acts
  exact ⟨s, loaded, written, since, column, counted.symm.trans column⟩

end NumberedBasic
