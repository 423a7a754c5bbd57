import NumberedBasic.Proofs.IntegerParts
import NumberedBasic.Proofs.RunHistory

/-!
# Text that is written and text that is delivered

`Deed.text` is the text that a statement writes, said without the buffer in which a session keeps
text until it is delivered: the items of a `PRINT` in order, as far as they can be printed, and what
`INPUT` says of a reply. Each statement adds its text at the end of the buffer (`Sound.output`), and
each cycle either leaves the text there or delivers it whole (`follow_text`). So nothing is lost,
repeated or moved: what a host has been given and what still waits are together the texts of all
statements that were performed, in order (`delivered_text`).
-/

set_option autoImplicit false

namespace NumberedBasic

/-! ## The text of a statement -/

/-- The text of what comes after an effect, which is nothing if the effect fails. -/
def Effect.textAfter {α : Type} (x : Effect α) (text : α → Session → String) (s : Session) :
    String :=
  match x s with
  | (.ok a, t) => text a t
  | (.error _, _) => ""

namespace Session

open Effect

/-- A text of blanks. -/
def blanks (count : Nat) : String :=
  String.ofList (List.replicate count ' ')

/-- The text that goes on from `column` to the column with number `x`, counted from one. -/
def tabText (column : Nat) (x : Float) : String :=
  match (Number.value? x).map Number.truncate with
  | some (.ofNat n) =>
    if n < 1 ∨ n > 255 then ""
    else if column > n - 1 then "\n" ++ blanks (n - 1)
    else blanks (n - 1 - column)
  | _ => ""

/-- The text of an item of a `PRINT`. -/
def itemText (s : Session) : PrintItem → String
  | .comma _ =>
    let zone := max s.config.printZone 1
    blanks (zone - s.column % zone)
  | .semicolon _ => ""
  | .value e =>
    match tabArgument? e with
    | some argument => textAfter (evaluateNumber argument) (fun x t => tabText t.column x) s
    | none => textAfter (evaluate e) (fun value _ => value.text) s

/-- The text of items that are printed in order, up to the first one that fails. -/
def itemsText (s : Session) : List PrintItem → String
  | [] => ""
  | item :: items => itemText s item ++ textAfter (printItem item) (fun _ t => itemsText t items) s

/-- Whether the line is ended after the items of a `PRINT`: it is if there are none, or if the last
one is a value. -/
def closesLine (items : List PrintItem) : Bool :=
  match items.getLast? with
  | some (.comma _) | some (.semicolon _) => false
  | some (.value _) | none => true

/-- The text of a `PRINT`. The line is ended after its items, unless one of them fails. -/
def printText (s : Session) (items : List PrintItem) : String :=
  itemsText s items ++
    textAfter (printItems true items) (fun _ _ => if closesLine items then "\n" else "") s

/-- What is said of a reply: that it has too many fields, or that it cannot be used. -/
def replyText (s : Session) (targets : List Target) (reply : String) : String :=
  let fields := ReplyField.ofReply reply
  match replyValues (targets.map Target.ident) fields with
  | .ok values =>
    textAfter (assignAll targets values)
      (fun _ _ => if fields.length > targets.length then "?EXTRA IGNORED\n" else "") s
  | .error _ =>
    match s.config.replyPolicy with
    | .askAgain => "?REDO FROM START\n"
    | .fail => ""

end Session

open Session Effect

/-- The text that a statement writes. Only `PRINT` and `INPUT` write. -/
def Deed.text (deed : Deed) : String :=
  match deed.statement with
  | .run (.print _ items) => printText deed.session items
  | .run (.input _ _ targets) =>
    match deed.session.reply with
    | some reply => replyText { deed.session with reply := none, column := 0 } targets reply
    | none => ""
  | _ => ""

/-- The text that an event delivers. -/
def Event.text : Event → String
  | .print text => text
  | .running | .input _ | .stopped _ => ""

/-! ## What is written goes to the end of the buffer -/

namespace Session

variable {α β : Type} {program : Program} {config : Config} {s t : Session}

/-- What is done next writes behind what was written before. -/
theorem output_bind {x : Effect α} {f : α → Effect β} {first : String}
    {text : α → Session → String} (written : (x s).2.output = s.output ++ first)
    (next : ∀ a t, x s = (.ok a, t) → (f a t).2.output = t.output ++ text a t) :
    ((x >>= f) s).2.output = s.output ++ (first ++ textAfter x text s) := by
  unfold textAfter
  rcases done : x s with ⟨result, t⟩
  rw [done] at written
  cases result with
  | error fault =>
      rw [bind_of_error done, String.append_empty]
      exact written
  | ok a =>
      rw [bind_of_ok done, next a t done, ← String.append_assoc]
      exact congrArg (· ++ text a t) written

/-- The same after an effect that leaves the buffer alone. -/
theorem output_bind_of_only {parts : List Part} {x : Effect α} {f : α → Effect β}
    {text : α → Session → String} (only : Only parts s (x s).2) (silent : .output ∉ parts)
    (next : ∀ a t, x s = (.ok a, t) → (f a t).2.output = t.output ++ text a t) :
    ((x >>= f) s).2.output = s.output ++ textAfter x text s := by
  have written : (x s).2.output = s.output ++ "" := by
    rw [String.append_empty]
    exact only .output silent
  rw [output_bind written next, String.empty_append]

/-- A column from 1 to 255, as a number stands for it. -/
def TabStop (x : Float) (n : ℕ) : Prop :=
  1 ≤ n ∧ n ≤ 255 ∧ (Number.value? x).map Number.truncate = some (n : ℤ)

/-- The bounds of a `TAB` are those of the columns. -/
theorem within_iff_exists_tabStop (x : Float) :
    1.0 ≤ Number.truncated x ∧ Number.truncated x ≤ 255.0 ↔ ∃ n, TabStop x n := by
  have least : Number.value? 1.0 = some ((1 : ℕ) : ℚ) := by decide +kernel
  have most : Number.value? 255.0 = some ((255 : ℕ) : ℚ) := by decide +kernel
  exact Number.truncated_within_iff least most

/-- `TAB` goes on to its column, on a new line if it has been passed. -/
theorem TabStop.tabTo {x : Float} {n : ℕ} (stop : TabStop x n) (s : Session) :
    tabTo x s =
      if s.column > n - 1 then writeBlanks (n - 1) (write "\n" s).2
      else writeBlanks (n - 1 - s.column) s := by
  have within := (within_iff_exists_tabStop x).mpr ⟨n, stop⟩
  obtain ⟨low, high, part⟩ := stop
  unfold Session.tabTo
  dsimp only
  rw [if_pos within, Number.unsignedWord_truncated part (by omega),
    bind_of_ok (x := Effect.get _) rfl]
  by_cases passed : s.column > n - 1
  · rw [if_pos passed, if_pos passed]
    rfl
  · rw [if_neg passed, if_neg passed]
    rfl

/-- `TAB` refuses any other number. -/
theorem tabTo_of_outside {x : Float} (outside : ¬∃ n, TabStop x n) (s : Session) :
    tabTo x s = (.error { code := .illegalFunctionCall, detail := "TAB" }, s) := by
  rw [← within_iff_exists_tabStop] at outside
  unfold Session.tabTo
  dsimp only
  rw [if_neg outside]
  rfl

/-- `TAB` writes the text that goes on to its column. -/
theorem output_tabTo (x : Float) (s : Session) :
    (tabTo x s).2.output = s.output ++ tabText s.column x := by
  by_cases stops : ∃ n, TabStop x n
  · obtain ⟨n, stop⟩ := stops
    rw [stop.tabTo]
    obtain ⟨low, high, part⟩ := stop
    have inside : ¬(n < 1 ∨ n > 255) := by omega
    unfold tabText
    rw [part]
    show _ = s.output ++ if n < 1 ∨ n > 255 then "" else
      if s.column > n - 1 then "\n" ++ blanks (n - 1) else blanks (n - 1 - s.column)
    rw [if_neg inside]
    by_cases passed : s.column > n - 1
    · rw [if_pos passed, if_pos passed, ← String.append_assoc]
      rfl
    · rw [if_neg passed, if_neg passed]
      rfl
  · rw [tabTo_of_outside stops]
    unfold tabText
    split
    next n part =>
      rw [if_pos, String.append_empty]
      by_contra inside
      exact stops ⟨n, by omega, by omega, part⟩
    next => exact (String.append_empty).symm

/-- Printing an item writes its text. -/
theorem output_printItem (sound : Sound program config s) (item : PrintItem) :
    (printItem item s).2.output = s.output ++ itemText s item := by
  cases item with
  | comma column => rfl
  | semicolon column => exact (String.append_empty).symm
  | value e =>
      unfold printItem itemText
      dsimp only
      cases tabArgument? e with
      | some argument =>
          have quiet := ((obeys_evaluateNumber argument).outcome sound).2.1
          exact output_bind_of_only quiet (by decide) fun x t _ => output_tabTo x t
      | none =>
          have quiet := ((obeys_evaluate e).outcome sound).2.1
          exact output_bind_of_only quiet (by decide) fun value t _ => rfl

/-- Items are written one after the other, each in the session that those before it have left. -/
theorem output_printItems (sound : Sound program config s) (newline : Bool)
    (items : List PrintItem) :
    (printItems newline items s).2.output = s.output ++ itemsText s items := by
  induction items generalizing s newline with
  | nil => exact (String.append_empty).symm
  | cons item items ih =>
      refine output_bind (output_printItem sound item) fun _ t printed => ih ?_ _
      have kept := ((writing_only.obeys_printItem item).outcome sound).1
      rwa [printed] at kept

/-- What the last of some items says about the new line stands, whatever those before it said. -/
theorem printItems_of_ok {newline ends : Bool} {items : List PrintItem}
    (done : printItems newline items s = (.ok ends, t)) :
    ends = (items.getLast?.map endsLine).getD newline := by
  induction items generalizing newline s with
  | nil =>
      cases done
      rfl
  | cons item items ih =>
      obtain ⟨_, u, -, rest⟩ := exists_of_bind done
      rw [ih rest, List.getLast?_cons]
      cases items.getLast? <;> rfl

/-- The flag that the items of a `PRINT` leave says whether the last of them closes the line. -/
theorem eq_closesLine {ends : Bool} {items : List PrintItem}
    (done : printItems true items s = (.ok ends, t)) : ends = closesLine items := by
  rw [printItems_of_ok done, closesLine]
  cases items.getLast? with
  | none => rfl
  | some item => cases item <;> rfl

/-- A `PRINT` writes its items and ends the line behind them. -/
theorem output_print (sound : Sound program config s) (items : List PrintItem) :
    (print items s).2.output = s.output ++ printText s items := by
  refine output_bind (output_printItems sound true items) fun ends t done => ?_
  rw [eq_closesLine done]
  by_cases closes : closesLine items = true
  · rw [if_pos closes, if_pos closes]
    rfl
  · rw [if_neg closes, if_neg closes]
    exact (String.append_empty).symm

/-- Using a reply writes what is said of it. -/
theorem output_useReply (sound : Sound program config s) (here : Address) (targets : List Target)
    (reply : String) :
    (useReply here targets reply s).2.output = s.output ++ replyText s targets reply := by
  unfold useReply replyText
  dsimp only
  cases replyValues (targets.map Target.ident) (ReplyField.ofReply reply) with
  | ok values =>
      have quiet := ((obeys_assignAll targets values).outcome sound).2.1
      refine output_bind_of_only quiet (by decide) fun _ t _ => ?_
      by_cases extra : (ReplyField.ofReply reply).length > targets.length
      · rw [if_pos extra, if_pos extra]
        rfl
      · rw [if_neg extra, if_neg extra]
        exact (String.append_empty).symm
  | error fault =>
      dsimp only
      rw [bind_of_ok (x := Effect.get _) rfl]
      cases s.config.replyPolicy with
      | askAgain => rfl
      | fail => exact (String.append_empty).symm

end Session

namespace Deed

variable {program : Program} {config : Config} {deed : Deed}

/-- A statement adds its text at the end of the buffer, also if it fails. -/
theorem Sound.output (formed : program.Formed) (sound : deed.Sound program config) :
    deed.left.output = deed.session.output ++ deed.text := by
  have only := sound.only formed .output
  obtain ⟨session, statement⟩ := deed
  have silent : ∀ {t : Session}, t.output = session.output → t.output = session.output ++ "" := by
    intro t same
    rw [same, String.append_empty]
  cases statement with
  | branch | skip => exact silent (only (by simp [Statement.footprint]))
  | run command =>
      cases command with
      | print column items =>
          show (andNext (print items) session).2.output = _
          rw [andNext_snd]
          exact output_print sound.session items
      | input column prompt targets =>
          show (input session.place prompt targets session).2.output = _
          unfold text
          dsimp only
          cases supplied : session.reply with
          | none =>
              rw [input_of_none session.place prompt targets supplied]
              exact silent rfl
          | some reply =>
              rw [input_of_some session.place prompt targets supplied]
              exact output_useReply sound.session.takeReply session.place targets reply
      | _ => exact silent (only (by simp [Statement.footprint, Command.footprint]))

end Deed

/-! ## What is delivered -/

namespace Session

/-- Text that waits is delivered as it is. -/
theorem deliver_text (s : Session) :
    String.join (s.deliver.1.toList.map Event.text) ++ s.deliver.2.output = s.output := by
  rcases s.deliver_cases with ⟨nothing, -⟩ | ⟨text, -⟩
  · rw [nothing]
    simp
  · rw [text]
    simp [Event.text]

/-- What the end of a run delivers and what it leaves in the buffer are all of the text that
waited. -/
theorem stop_text (s : Session) (outcome : Outcome) :
    String.join ((s.stop outcome).1.toList.map Event.text) ++ (s.stop outcome).2.output =
      s.output := by
  unfold stop
  rcases s.finish_cases outcome with ⟨stopped, -⟩ | print
  · rw [stopped]
    simp [Event.text, close]
  · rw [print]
    simp [Event.text]

/-- Whatever a statement leads to, the text that waits is delivered or goes on waiting. -/
theorem follow_text (result : Except Fault Course) (s : Session) :
    String.join ((follow result s).1.toList.map Event.text) ++ (follow result s).2.output =
      s.output := by
  cases result with
  | error fault => exact stop_text s _
  | ok course =>
      cases course with
      | next | jump => exact deliver_text _
      | ask prompt => simp [follow, Event.text]
      | finish | stop => exact stop_text s _

end Session

namespace History

/-- The text that has been delivered to the host. -/
def delivered (history : History) : String :=
  String.join (history.events.map Event.text)

/-- The text that the statements have written. -/
def written (history : History) : String :=
  String.join (history.deeds.map Deed.text)

end History

variable {program : Program} {config : Config} {s : Session}

/-- In a cycle the text of its statement is delivered or goes on waiting. -/
theorem turn_text (formed : program.Formed) (standing : Standing program config s)
    (isOpen : s.Open) :
    String.join (s.turn.1.toList.map Event.text) ++ s.turn.2.output =
      String.join (s.deed?.toList.map Deed.text) := by
  have empty : s.output = "" := String.isEmpty_iff.mp isOpen.1
  cases performed : s.deed? with
  | none =>
      rw [turn_of_no_deed performed, stop_text]
      exact empty
  | some deed =>
      have quiet := output_of_deed? isOpen performed
      have sound := Deed.sound_of_deed? standing performed
      rw [turn_of_deed? performed, follow_text, sound.output formed, quiet]
      simp

/-- What has been delivered and what waits is what has been written. -/
theorem lasting_text (formed : program.Formed) :
    Lasting program config fun history =>
      history.delivered ++ history.session.output = history.written where
  turn := by
    intro history standing isOpen balanced
    -- statements are performed only when all that was written before has been delivered
    have empty : history.session.output = "" := String.isEmpty_iff.mp isOpen.1
    rw [empty, String.append_empty] at balanced
    have turned := turn_text formed standing isOpen
    unfold History.delivered History.written at balanced ⊢
    simp only [History.turn, List.map_append, String.join_append]
    rw [String.append_assoc, turned, balanced]
  tell := by
    intro history event quiet balanced
    have nothing : event.text = "" := by
      cases event with
      | print text => exact absurd rfl (quiet text)
      | running | input | stopped => rfl
    unfold History.delivered History.written at balanced ⊢
    simp only [List.map_append, List.map_cons, List.map_nil, String.join_append, nothing]
    simpa using balanced
  caller := by
    intro history t only balanced
    have same : t.output = history.session.output := only .output (by decide)
    show history.delivered ++ t.output = history.written
    rw [same]
    exact balanced

/-- No text is lost, repeated or moved. Whatever a host does with a program that has been loaded,
the text that it has been given, together with what still waits, is the texts of all statements that
were performed, in order, where the text of each is what it has added to the buffer; and after the
session has been run, no text waits. -/
theorem delivered_text {source : String} {clock : Clock}
    (loaded : Session.load source config clock = .ok s) (acts : List Act) :
    let history := s.history.run acts
    history.delivered ++ history.session.output = history.written ∧
    (∀ deed ∈ history.deeds, deed.left.output = deed.session.output ++ deed.text) ∧
    ∀ cycles, (history.session.execute cycles).2.output = "" := by
  intro history
  obtain ⟨program, -, -, begins⟩ := exists_begins loaded
  have initial : s.history.delivered ++ s.output = s.history.written := by
    rw [String.isEmpty_iff.mp begins.isOpen.1]
    rfl
  obtain ⟨standing, -, balanced⟩ := (lasting_text begins.formed).run begins initial acts
  refine ⟨balanced, fun deed inside => ?_, fun cycles => ?_⟩
  · obtain ⟨front, back, whole⟩ := List.append_of_mem inside
    have account : Account s history.deeds history.session := account_run begins acts
    rw [whole] at account
    obtain ⟨u, leads, performed, -⟩ := account.split begins
    exact (Deed.sound_of_deed? (leads.standing begins).1 performed).output begins.formed
  · exact String.isEmpty_iff.mp (execute_told begins.formed standing cycles).isEmpty

/-- The text of a `PRINT` that fails at its third item is delivered up to there, after the text of
another one, a prompt and what is said of a reply. -/
theorem delivered_text_failing :
    let source := "10 PRINT \"A\";:INPUT X$\n20 PRINT X$,ASC(\"\");\"C\""
    let acts := [.execute 9, .execute 9, .answer "B,D", .execute 9, .execute 9, .interrupt]
    ∃ s, Session.load source { seed := 0 } ⟨2000, 1, 1, 0, 0, 0⟩ = .ok s ∧
      (s.history.run acts).deeds.length = 4 ∧
      (s.history.run acts).delivered = "A?EXTRA IGNORED\nB             " ∧
      (s.history.run acts).written = "A?EXTRA IGNORED\nB             " := by
  intro source acts
  let test (s : Session) : Bool :=
    let history := s.history.run acts
    history.deeds.length == 4 && history.session.output == "" &&
      history.delivered == "A?EXTRA IGNORED\nB             "
  obtain ⟨s, loaded, tested⟩ : ∃ s,
      Session.load source { seed := 0 } ⟨2000, 1, 1, 0, 0, 0⟩ = .ok s ∧ test s = true :=
    exists_ok_of_any (by decide +kernel)
  simp only [test, Bool.and_eq_true, beq_iff_eq] at tested
  obtain ⟨⟨performed, waits⟩, delivered⟩ := tested
  obtain ⟨balanced, -, -⟩ := delivered_text loaded acts
  rw [waits, String.append_empty, delivered] at balanced
  exact ⟨s, loaded, performed, delivered, balanced.symm⟩

end NumberedBasic
