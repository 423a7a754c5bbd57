import Mathlib.Data.List.Forall2
import NumberedBasic.Proofs.BudgetIndependence
import NumberedBasic.Proofs.NameTags

/-!
# Replies are used whole or not at all

A reply to `INPUT` is checked against all targets before anything is assigned. `Accepted` says when
its fields can be used, and `Refused` with which fault they cannot; `replyValues` decides between
the two (`replyValues_of_accepted`, `replyValues_of_refused`). The fields of an accepted reply are
then assigned from left to right, which `Assigns` describes target by target: the subscripts of an
element are evaluated in the session that the targets before it have left.

`Session.Waits` is the session at the statement. A reply that is refused leaves it as it was, but
for the column, and the same statement waits again.
-/

set_option autoImplicit false

namespace NumberedBasic

/-! ## Fields and targets -/

namespace Target

/-- A field can be assigned: any field to a text variable, and to a numeric one a field that is not
quoted and is a number. -/
def Takes (target : Target) (field : ReplyField) : Prop :=
  target.name.isText = true ∨
    field.quoted = false ∧ (Number.ofField? field.text.toList).isSome = true

instance (target : Target) (field : ReplyField) : Decidable (target.Takes field) :=
  inferInstanceAs (Decidable (_ ∨ _))

/-- What a field stands for that is assigned to a target. -/
def reading (target : Target) (field : ReplyField) : Value :=
  if target.name.isText then .string field.text
  else .number ((Number.ofField? field.text.toList).getD 0.0)

/-- What a field stands for suits the name of its target. -/
theorem fits_reading (target : Target) (field : ReplyField) :
    (target.reading field).fits target.name = true := by
  unfold reading
  cases text : target.name.isText <;> simp [Value.fits, Value.isString, text]

end Target

namespace ReplyField

/-- There is a field for each target, and each target can be assigned its field. -/
def Accepted (fields : List ReplyField) (targets : List Target) : Prop :=
  targets.length ≤ fields.length ∧ ∀ pair ∈ targets.zip fields, pair.1.Takes pair.2

instance (fields : List ReplyField) (targets : List Target) :
    Decidable (Accepted fields targets) :=
  inferInstanceAs (Decidable (_ ∧ _))

/-- Why fields cannot be assigned to targets: there are too few of them, or some field cannot be
assigned to its target. Of these the first one is named. -/
inductive Refused (fields : List ReplyField) (targets : List Target) : Fault → Prop
  | short (few : fields.length < targets.length) :
      Refused fields targets { code := .inputPastEnd, detail := "TOO FEW VALUES" }
  | unfit {front back : List (Target × ReplyField)} {target : Target} {field : ReplyField}
      (enough : targets.length ≤ fields.length)
      (pairs : targets.zip fields = front ++ (target, field) :: back)
      (before : ∀ pair ∈ front, pair.1.Takes pair.2) (bad : ¬target.Takes field) :
      Refused fields targets { code := .typeMismatch, detail := field.text ++ " IS NOT A NUMBER" }

/-- Fields are accepted, or there is a reason why they are not. -/
theorem accepted_or_refused (fields : List ReplyField) (targets : List Target) :
    Accepted fields targets ∨ ∃ fault, Refused fields targets fault := by
  by_cases few : fields.length < targets.length
  · exact .inr ⟨_, .short few⟩
  have enough : targets.length ≤ fields.length := Nat.le_of_not_lt few
  cases found : (targets.zip fields).find? fun pair => !decide (pair.1.Takes pair.2) with
  | none =>
    refine .inl ⟨enough, fun pair inside => ?_⟩
    simpa using List.find?_eq_none.mp found pair inside
  | some pair =>
    obtain ⟨bad, front, back, pairs, before⟩ := List.find?_eq_some_iff_append.mp found
    refine .inr ⟨_, .unfit enough pairs (fun pair inside => ?_) (by simpa using bad)⟩
    simpa using before pair inside

end ReplyField

namespace Session

open Effect

/-- A field that can be assigned has the value that it stands for. -/
theorem fieldValue_of_takes {target : Target} {field : ReplyField}
    (spelled : target.ident.Spelled) (takes : target.Takes field) :
    fieldValue target.ident field = .ok (target.reading field) := by
  unfold fieldValue Target.reading
  rw [show target.ident.isText = target.name.isText from spelled]
  cases text : target.name.isText with
  | true => rfl
  | false =>
    obtain ⟨unquoted, number⟩ : field.quoted = false ∧ _ := by
      simpa [Target.Takes, text] using takes
    obtain ⟨x, spelled⟩ := Option.isSome_iff_exists.mp number
    simp [unquoted, spelled]

/-- A field that cannot be assigned is refused as no number. -/
theorem fieldValue_of_not_takes {target : Target} {field : ReplyField}
    (spelled : target.ident.Spelled) (bad : ¬target.Takes field) :
    fieldValue target.ident field =
      .error { code := .typeMismatch, detail := field.text ++ " IS NOT A NUMBER" } := by
  obtain ⟨number, wrong⟩ := not_or.mp bad
  unfold fieldValue
  rw [show target.ident.isText = target.name.isText from spelled, if_neg number]
  cases quoted : field.quoted with
  | true => rfl
  | false =>
    have none : Number.ofField? field.text.toList = none := by simpa [quoted] using wrong
    simp [none]

/-- Fields that can be assigned have the values that they stand for, in order. -/
theorem fieldValues_of_takes {targets : List Target} {fields : List ReplyField}
    (spelled : ∀ target ∈ targets, target.ident.Spelled)
    (takes : ∀ pair ∈ targets.zip fields, pair.1.Takes pair.2) :
    fieldValues (targets.map Target.ident) fields =
      .ok (List.zipWith Target.reading targets fields) := by
  induction targets generalizing fields with
  | nil => rfl
  | cons target targets ih =>
    cases fields with
    | nil => rfl
    | cons field fields =>
      obtain ⟨here, others⟩ := List.forall_mem_cons.mp spelled
      have first := fieldValue_of_takes here (takes (target, field) List.mem_cons_self)
      have rest := ih others fun pair inside => takes pair (List.mem_cons_of_mem _ inside)
      simp only [List.map_cons, fieldValues, first, rest, List.zipWith_cons_cons]
      rfl

/-- The first field that cannot be assigned is the one that is reported. -/
theorem fieldValues_of_not_takes {targets : List Target} {fields : List ReplyField}
    {front back : List (Target × ReplyField)} {target : Target} {field : ReplyField}
    (spelled : ∀ target ∈ targets, target.ident.Spelled)
    (pairs : targets.zip fields = front ++ (target, field) :: back)
    (before : ∀ pair ∈ front, pair.1.Takes pair.2) (bad : ¬target.Takes field) :
    fieldValues (targets.map Target.ident) fields =
      .error { code := .typeMismatch, detail := field.text ++ " IS NOT A NUMBER" } := by
  induction front generalizing targets fields with
  | nil =>
    obtain ⟨targets, fields, rfl, rfl, -⟩ := List.zip_eq_cons_iff.mp pairs
    simp only [List.map_cons, fieldValues,
      fieldValue_of_not_takes (spelled _ List.mem_cons_self) bad]
    rfl
  | cons pair front ih =>
    obtain ⟨targets, fields, rfl, rfl, others⟩ := List.zip_eq_cons_iff.mp pairs
    obtain ⟨here, spelledOthers⟩ := List.forall_mem_cons.mp spelled
    have first := fieldValue_of_takes here (before pair List.mem_cons_self)
    have rest := ih spelledOthers others.symm fun other inside =>
      before other (List.mem_cons_of_mem _ inside)
    simp only [List.map_cons, fieldValues, first, rest]
    rfl

/-- A reply that is accepted has the values that its fields stand for, those beyond the last target
left out. -/
theorem replyValues_of_accepted {targets : List Target} {fields : List ReplyField}
    (spelled : ∀ target ∈ targets, target.ident.Spelled)
    (accepted : ReplyField.Accepted fields targets) :
    replyValues (targets.map Target.ident) fields =
      .ok (List.zipWith Target.reading targets fields) := by
  have enough : ¬fields.length < (targets.map Target.ident).length := by
    rw [List.length_map]
    exact Nat.not_lt.mpr accepted.1
  rw [replyValues, if_neg enough, fieldValues_of_takes spelled accepted.2]

/-- A reply that is refused fails with the fault that its refusal names. -/
theorem replyValues_of_refused {targets : List Target} {fields : List ReplyField} {fault : Fault}
    (spelled : ∀ target ∈ targets, target.ident.Spelled)
    (refused : ReplyField.Refused fields targets fault) :
    replyValues (targets.map Target.ident) fields = .error fault := by
  unfold replyValues
  rw [List.length_map]
  cases refused with
  | short few => rw [if_pos few]
  | unfit enough pairs before bad =>
    rw [if_neg (Nat.not_lt.mpr enough), fieldValues_of_not_takes spelled pairs before bad]

/-! ## Assigning -/

/-- Assigning values to targets from left to right, how it ends and the session it leaves. It ends
early at an element whose subscripts cannot be evaluated, or that cannot be stored into. -/
inductive Assigns : List Target → List Value → Session → Except Fault Unit → Session → Prop
  | done {s : Session} : Assigns [] [] s (.ok ()) s
  | scalar {column : Span} {i : Ident} {value : Value} {targets : List Target}
      {values : List Value} {result : Except Fault Unit} {s t : Session}
      (rest : Assigns targets values { s with memory := s.memory.put i.name value } result t) :
      Assigns (.scalar column i :: targets) (value :: values) s result t
  | element {e : Element} {value : Value} {targets : List Target} {values subscripts : List Value}
      {memory : Memory} {result : Except Fault Unit} {s t u : Session}
      (evaluated : evaluateAll e.subscripts s = (.ok subscripts, u)) (quiet : Quiet s u)
      (stored : u.memory.storeElement e.name subscripts value = .ok memory)
      (rest : Assigns targets values { u with memory } result t) :
      Assigns (.element e :: targets) (value :: values) s result t
  | unevaluated {e : Element} {value : Value} {targets : List Target} {values : List Value}
      {fault : Fault} {s u : Session}
      (failed : evaluateAll e.subscripts s = (.error fault, u)) (quiet : Quiet s u) :
      Assigns (.element e :: targets) (value :: values) s (.error fault) u
  | unstored {e : Element} {value : Value} {targets : List Target} {values subscripts : List Value}
      {fault : Fault} {s u : Session}
      (evaluated : evaluateAll e.subscripts s = (.ok subscripts, u)) (quiet : Quiet s u)
      (failed : u.memory.storeElement e.name subscripts value = .error fault) :
      Assigns (.element e :: targets) (value :: values) s (.error fault) u

variable {program : Program} {config : Config} {s t u : Session} {e : Element}
variable {subscripts : List Value}

/-- An element whose subscripts have been evaluated is stored into, or the store fails. -/
theorem assign_of_evaluated (value : Value)
    (evaluated : evaluateAll e.subscripts s = (.ok subscripts, u)) :
    assign (.element e) value s =
      match u.memory.storeElement e.name subscripts value with
      | .ok memory => (.ok (), { u with memory })
      | .error fault => (.error fault, u) := by
  have whole : assign (.element e) value s = (do
      let offset ← ofExcept (u.memory.target e.name subscripts value)
      modify fun s => { s with memory := s.memory.putElement e.name offset value }) u :=
    bind_of_ok evaluated
  rw [whole, Memory.storeElement]
  cases u.memory.target e.name subscripts value <;> rfl

/-- Values that fit their targets are assigned in order. -/
theorem assigns_assignAll (sound : Sound program config s) {targets : List Target}
    {values : List Value}
    (fit : List.Forall₂ (fun target value => value.fits target.name = true) targets values) :
    Assigns targets values s (assignAll targets values s).1 (assignAll targets values s).2 := by
  induction fit generalizing s with
  | nil => exact .done
  | @cons target value targets values fits _ ih =>
    -- The next target is assigned in the session that this one leaves.
    have kept : Sound program config (assign target value s).2 :=
      ((obeys_assign target value).outcome sound).1
    cases target with
    | scalar column i =>
      have stored : assign (.scalar column i) value s =
          (.ok (), { s with memory := s.memory.put i.name value }) := store_eq fits s
      rw [stored] at kept
      rw [assignAll, bind_of_ok stored]
      exact .scalar (ih kept)
    | element e =>
      obtain ⟨-, quiet, -⟩ := (quiet_evaluateAll e.subscripts).outcome sound.toReady
      rcases evaluated : evaluateAll e.subscripts s with ⟨_ | subscripts, u⟩
      · rw [evaluated] at quiet
        have failed : assign (.element e) value s = _ := bind_of_error evaluated
        rw [assignAll, bind_of_error failed]
        exact .unevaluated evaluated quiet
      · rw [evaluated] at quiet
        have assigned := assign_of_evaluated value evaluated
        cases stored : u.memory.storeElement e.name subscripts value with
        | error fault =>
          rw [stored] at assigned
          rw [assignAll, bind_of_error assigned]
          exact .unstored evaluated quiet stored
        | ok memory =>
          rw [stored] at assigned
          rw [assigned] at kept
          rw [assignAll, bind_of_ok assigned]
          exact .element evaluated quiet stored (ih kept)

/-! ## Using a reply -/

variable {targets : List Target} {reply : String}

/-- The values that fields stand for fit their targets. -/
theorem fit_readings {targets : List Target} {fields : List ReplyField}
    (enough : targets.length ≤ fields.length) :
    List.Forall₂ (fun target value => value.fits target.name = true) targets
      (List.zipWith Target.reading targets fields) := by
  induction targets generalizing fields with
  | nil => exact .nil
  | cons target targets ih =>
    cases fields with
    | nil => simp at enough
    | cons field fields =>
      exact .cons (target.fits_reading field) (ih (Nat.le_of_succ_le_succ enough))

/-- A reply whose values were assigned is used up, and fields that are left over are said to be
ignored. -/
theorem useReply_of_assigned (here : Address) {values : List Value}
    (read : replyValues (targets.map Target.ident) (ReplyField.ofReply reply) = .ok values)
    (assigned : assignAll targets values s = (.ok (), t)) :
    useReply here targets reply s =
      (.ok .next,
        if targets.length < (ReplyField.ofReply reply).length then
          (write "?EXTRA IGNORED\n" t).2
        else t) := by
  unfold useReply
  simp only [read]
  rw [bind_of_ok assigned]
  split <;> rfl

/-- A value that could not be assigned ends the statement with its fault. -/
theorem useReply_of_unassigned (here : Address) {values : List Value} {fault : Fault}
    (read : replyValues (targets.map Target.ident) (ReplyField.ofReply reply) = .ok values)
    (failed : assignAll targets values s = (.error fault, t)) :
    useReply here targets reply s = (.error fault, t) := by
  unfold useReply
  simp only [read]
  rw [bind_of_error failed]

/-- A reply that is refused is asked for again or ends the statement, as the session is set up. -/
theorem useReply_of_refused (here : Address) (s : Session) {fault : Fault}
    (read : replyValues (targets.map Target.ident) (ReplyField.ofReply reply) = .error fault) :
    useReply here targets reply s =
      match s.config.replyPolicy with
      | .askAgain => (.ok (.jump here), (write "?REDO FROM START\n" s).2)
      | .fail => (.error fault, s) := by
  unfold useReply
  simp only [read]
  rw [bind_of_ok (x := Effect.get _) rfl]
  cases s.config.replyPolicy <;> rfl

/-! ## Waiting for a reply -/

/-- A session that stands at an `INPUT` and waits for the reply. -/
structure Waits (s : Session) (prompt : String) (targets : List Target) : Prop where
  isOpen : s.Open
  quiet : s.interrupted = false
  missing : s.reply = none
  stands : ∃ column, s.program.statementAt? s.place = some (.run (.input column prompt targets))

/-- The text of a line that is entered as a reply. -/
def enteredText (line : String) : String :=
  String.ofList (Text.dropLineEnd line.toList)

/-- The fields of a line that is entered as a reply. -/
def enteredFields (line : String) : List ReplyField :=
  ReplyField.ofReply (enteredText line)

/-- The values that the fields of a line stand for, one for each target. -/
def enteredValues (targets : List Target) (line : String) : List Value :=
  List.zipWith Target.reading targets (enteredFields line)

/-- The session once its reply has been taken. The terminal is at the start of a line then. -/
def taken (s : Session) : Session :=
  { s with reply := none, column := 0 }

variable {prompt : String}

/-- The targets of the statement that a session waits at have the right tags. -/
theorem Waits.spelled (waits : s.Waits prompt targets) (reachable : Reachable s) :
    ∀ target ∈ targets, target.ident.Spelled := by
  obtain ⟨column, stands⟩ := waits.stands
  exact reachable.tagged _ _ stands

/-- A session that waits asks for the reply. -/
theorem Waits.told (waits : s.Waits prompt targets) : s.Told (.input prompt) := by
  obtain ⟨column, stands⟩ := waits.stands
  have stepped : step s = (.ok (.ask prompt), s) := by
    rw [step_of_statement? (Program.statement?_of_statementAt? stands)]
    exact input_of_none s.place prompt targets waits.missing
  exact ⟨waits.isOpen, turn_of_step (by simp [waits.quiet]) stepped⟩

/-- The next cycle after a reply goes on as using it says. -/
theorem Waits.execute_answer (waits : s.Waits prompt targets) {line : String}
    {result : Except Fault Course}
    (used : useReply s.place targets (enteredText line) s.taken = (result, t)) (cycles : Nat) :
    (s.answer line).execute (cycles + 1) =
      match follow result t with
      | (some event, u) => (event, u)
      | (none, u) => u.cycle cycles := by
  obtain ⟨column, stands⟩ := waits.stands
  have found : (s.answer line).program.statement? (s.answer line).place = some _ :=
    Program.statement?_of_statementAt? stands
  have stepped : step (s.answer line) = (result, t) := by
    rw [step_of_statement? found, ← used]
    exact input_of_some s.place prompt targets rfl
  have isOpen : (s.answer line).Open := waits.isOpen
  have turned := turn_of_step (by simp [answer, waits.quiet]) stepped
  rcases followed : follow result t with ⟨_ | event, u⟩
  all_goals rw [isOpen.execute_eq, cycle, turned, followed]

/-- A reply that leads to a fault ends the run. -/
theorem Waits.execute_of_fault (waits : s.Waits prompt targets) {line : String} {fault : Fault}
    (used : useReply s.place targets (enteredText line) s.taken = (.error fault, t))
    (only : Only [.dice, .memory] s.taken t) (cycles : Nat) :
    (s.answer line).execute (cycles + 1) =
      (.stopped (.failed (fault.inLine s.line?)), t.close (.failed (fault.inLine s.line?))) := by
  have output : t.output = s.output := only .output (by decide)
  have line? : t.line? = s.line? := by
    have sameProgram : t.program = s.program := only .program (by decide)
    have samePlace : t.place = s.place := only .place (by decide)
    simp only [Session.line?, sameProgram, samePlace]
  have nothing (outcome : Outcome) : (t.close outcome).deliver = (none, t.close outcome) := by
    refine if_pos ?_
    show t.output.isEmpty
    rw [output]
    exact waits.isOpen.1
  rw [waits.execute_answer used]
  simp only [follow, stop, finish, nothing, line?]

/-- A line that is written when a reply has been used is delivered at once, and the next one starts
at its first column. -/
theorem Waits.execute_of_written (waits : s.Waits prompt targets) {line text : String}
    {course : Course} (place : Address)
    (used : useReply s.place targets (enteredText line) s.taken = (.ok course, (write text t).2))
    (only : Only [.dice, .memory] s.taken t)
    (goes : follow (.ok course) (write text t).2 = { (write text t).2 with place }.deliver)
    (nonempty : text.isEmpty = false) (whole : columnAfter 0 text.toList = 0) (cycles : Nat) :
    (s.answer line).execute (cycles + 1) = (.print text, { t with place }) := by
  have output : t.output = "" :=
    Eq.trans (only .output (by decide)) (String.isEmpty_iff.mp waits.isOpen.1)
  have column : t.column = 0 := only .column (by decide)
  have written : (write text t).2 = { t with output := text } := by
    show { t with output := t.output ++ text, column := columnAfter t.column text.toList } = _
    rw [output, column, whole, String.empty_append, ← column]
  have delivered : ({ t with output := text, place } : Session).deliver =
      (some (.print text), { t with output := "", place }) :=
    if_neg (by simp [nonempty])
  rw [waits.execute_answer used, goes, written, delivered, ← output]

/-- A reply that has been used silently lets the run go on after the statement. -/
theorem Waits.execute_of_next (waits : s.Waits prompt targets) {line : String}
    (used : useReply s.place targets (enteredText line) s.taken = (.ok .next, t))
    (only : Only [.dice, .memory] s.taken t) (cycles : Nat) :
    (s.answer line).execute (cycles + 1) = execute cycles { t with place := s.place.next } := by
  have output : t.output = s.output := only .output (by decide)
  have outcome : t.outcome = s.outcome := only .outcome (by decide)
  have place : t.place = s.place := only .place (by decide)
  have goes : ({ t with place := s.place.next } : Session).Open := by
    show t.output.isEmpty ∧ t.outcome = none
    rw [output, outcome]
    exact waits.isOpen
  have silent : ({ t with place := s.place.next } : Session).deliver = (none, _) := if_pos goes.1
  rw [waits.execute_answer used, follow, place, silent, goes.execute_eq]

/-! ## Replies that are accepted or refused -/

/-- The values of an accepted reply are assigned in order, and nothing but variables, arrays and
random numbers is changed. -/
theorem assigns_of_accepted (reachable : Reachable s) {line : String}
    (accepted : ReplyField.Accepted (enteredFields line) targets) {result : Except Fault Unit}
    (assigned : assignAll targets (enteredValues targets line) s.taken = (result, t)) :
    Assigns targets (enteredValues targets line) s.taken result t ∧
      Only [.dice, .memory] s.taken t := by
  obtain ⟨program, config, -, standing⟩ := reachable.standing
  have sound : Sound program config s.taken := standing.toSound.takeReply
  have assigns := assigns_assignAll sound (fit_readings accepted.1)
  obtain ⟨-, only, -⟩ := (obeys_assignAll targets (enteredValues targets line)).outcome sound
  rw [enteredValues] at assigned only
  rw [assigned] at assigns only
  exact ⟨assigns, only⟩

/-- After an accepted reply has been assigned the run goes on behind the statement, once it has been
said that there are fields too many. -/
theorem Waits.execute_of_assigned (waits : s.Waits prompt targets) (reachable : Reachable s)
    {line : String} (accepted : ReplyField.Accepted (enteredFields line) targets)
    (assigned : assignAll targets (enteredValues targets line) s.taken = (.ok (), t))
    (only : Only [.dice, .memory] s.taken t) (cycles : Nat) :
    (s.answer line).execute (cycles + 1) =
      if targets.length < (enteredFields line).length then
        (.print "?EXTRA IGNORED\n", { t with place := s.place.next })
      else execute cycles { t with place := s.place.next } := by
  have used : useReply s.place targets (enteredText line) s.taken =
      (.ok .next, if targets.length < (enteredFields line).length then
        (write "?EXTRA IGNORED\n" t).2 else t) :=
    useReply_of_assigned s.place (replyValues_of_accepted (waits.spelled reachable) accepted)
      assigned
  split at used
  · next extra =>
    have goes : follow (.ok .next) (write "?EXTRA IGNORED\n" t).2 =
        { (write "?EXTRA IGNORED\n" t).2 with place := s.place.next }.deliver := by
      have place : (write "?EXTRA IGNORED\n" t).2.place = s.place := only .place (by decide)
      rw [follow, place]
    rw [if_pos extra, waits.execute_of_written _ used only goes rfl rfl]
  · next fitting =>
    rw [if_neg fitting, waits.execute_of_next used only]

/-- A reply that is refused is asked for again, in a session that differs in the column at most, or
the run ends there. -/
theorem Waits.execute_of_refused (waits : s.Waits prompt targets) (reachable : Reachable s)
    {line : String} {fault : Fault}
    (refused : ReplyField.Refused (enteredFields line) targets fault) (cycles : Nat) :
    (s.answer line).execute (cycles + 1) =
      match s.config.replyPolicy with
      | .askAgain => (.print "?REDO FROM START\n", s.taken)
      | .fail =>
        (.stopped (.failed (fault.inLine s.line?)),
          s.taken.close (.failed (fault.inLine s.line?))) := by
  have used := useReply_of_refused s.place s.taken
    (replyValues_of_refused (waits.spelled reachable) refused)
  have same : s.taken.config = s.config := rfl
  have only : Only [.dice, .memory] s.taken s.taken := Std.Refl.refl _
  rw [same] at used
  cases policy : s.config.replyPolicy with
  | askAgain =>
    rw [policy] at used
    exact waits.execute_of_written s.place used only rfl rfl rfl cycles
  | fail =>
    rw [policy] at used
    exact waits.execute_of_fault used only cycles

/-- Once its reply has been taken, a session waits at the same `INPUT` for another one. -/
theorem Waits.taken (waits : s.Waits prompt targets) : s.taken.Waits prompt targets where
  isOpen := waits.isOpen
  quiet := waits.quiet
  missing := rfl
  stands := waits.stands

/-- A reply to a session that waits is used up, whole or not at all. If it is accepted, the values
of its fields are assigned from left to right, which changes variables, arrays and random numbers at
most, and the run goes on after the statement unless an array element cannot be assigned. If it is
refused, nothing is assigned. Then the same statement asks again, where replies are asked for again,
and otherwise the run ends with the fault. -/
theorem input_all_or_nothing (reachable : Reachable s) (waits : s.Waits prompt targets)
    (line : String) :
    (ReplyField.Accepted (enteredFields line) targets ∧
      ∃ result t,
        Assigns targets (enteredValues targets line) s.taken result t ∧
        Only [.dice, .memory] s.taken t ∧
        ∀ cycles, (s.answer line).execute (cycles + 1) =
          match result with
          | .ok () =>
            if targets.length < (enteredFields line).length then
              (.print "?EXTRA IGNORED\n", { t with place := s.place.next })
            else execute cycles { t with place := s.place.next }
          | .error fault =>
            (.stopped (.failed (fault.inLine s.line?)),
              t.close (.failed (fault.inLine s.line?)))) ∨
    (¬ReplyField.Accepted (enteredFields line) targets ∧
      ∃ fault, ReplyField.Refused (enteredFields line) targets fault ∧
        s.taken.Waits prompt targets ∧
        (∀ cycles, s.taken.execute (cycles + 1) = (.input prompt, s.taken)) ∧
        ∀ cycles, (s.answer line).execute (cycles + 1) =
          match s.config.replyPolicy with
          | .askAgain => (.print "?REDO FROM START\n", s.taken)
          | .fail =>
            (.stopped (.failed (fault.inLine s.line?)),
              s.taken.close (.failed (fault.inLine s.line?)))) := by
  have spelled := waits.spelled reachable
  obtain accepted | ⟨fault, refused⟩ := ReplyField.accepted_or_refused (enteredFields line) targets
  · rcases assigned : assignAll targets (enteredValues targets line) s.taken with ⟨result, t⟩
    obtain ⟨assigns, only⟩ := assigns_of_accepted reachable accepted assigned
    refine .inl ⟨accepted, result, t, assigns, only, fun cycles => ?_⟩
    cases result with
    | ok _ => exact waits.execute_of_assigned reachable accepted assigned only cycles
    | error fault =>
      have used := useReply_of_unassigned s.place (replyValues_of_accepted spelled accepted)
        assigned
      exact waits.execute_of_fault used only cycles
  · refine .inr ⟨fun accepted => ?_, fault, refused, waits.taken, fun cycles => ?_,
      waits.execute_of_refused reachable refused⟩
    · have read := replyValues_of_accepted spelled accepted
      rw [replyValues_of_refused spelled refused] at read
      cases read
    · exact execute_of_asks waits.taken.told (cycles + 1) (Nat.succ_pos cycles)

/-- After five statements, a session waits for two values, of which `2,9` are some and `2,X` are
not, and the first of these replies leads to the text `9`. -/
def asksForElement (s : Session) : Bool :=
  let t := (s.execute 5).2
  t.output.isEmpty && t.outcome.isNone && !t.interrupted && t.reply.isNone &&
    decide (t.config.replyPolicy = .askAgain) &&
    decide (((t.answer "2,9").execute 5).1 = .print "9\n") &&
    match t.program.statementAt? t.place with
    | some (.run (.input _ prompt targets)) =>
      decide (prompt = "? ") && decide (targets.length = 2) &&
        decide (ReplyField.Accepted (enteredFields "2,9") targets) &&
        decide (¬ReplyField.Accepted (enteredFields "2,X") targets)
    | _ => false

/-- Of two replies to `INPUT A,B(A)`, one sets the variable and with it chooses the element, and one
whose last field is not a number leaves no trace. -/
theorem input_all_or_nothing_element :
    ∃ s targets, Reachable s ∧ s.Waits "? " targets ∧ targets.length = 2 ∧
      (∃ t, Assigns targets (enteredValues targets "2,9") s.taken (.ok ()) t ∧
        (execute 4 { t with place := s.place.next }).1 = .print "9\n") ∧
      ∀ cycles, (s.answer "2,X").execute (cycles + 1) = (.print "?REDO FROM START\n", s.taken) := by
  obtain ⟨s, loaded, tested⟩ : ∃ s,
      Session.load "10 DIM B(3)\n20 INPUT A,B(A)\n30 PRINT B(2)\n" { seed := 0 }
        ⟨2000, 1, 1, 0, 0, 0⟩ = .ok s ∧ asksForElement s = true :=
    exists_ok_of_any (by decide +kernel)
  simp only [asksForElement, Bool.and_eq_true, Bool.not_eq_true', decide_eq_true_eq,
    Option.isNone_iff_eq_none] at tested
  have reachable : Reachable (s.execute 5).2 := (Reachable.load loaded).execute 5
  generalize (s.execute 5).2 = t at reachable tested
  obtain ⟨⟨⟨⟨⟨⟨empty, going⟩, quiet⟩, missing⟩, policy⟩, shown⟩, stands⟩ := tested
  split at stands
  next column prompt targets found =>
    simp only [Bool.and_eq_true, decide_eq_true_eq] at stands
    obtain ⟨⟨⟨rfl, two⟩, fine⟩, bad⟩ := stands
    have waits : t.Waits "? " targets := ⟨⟨empty, going⟩, quiet, missing, column, found⟩
    have enough : ¬targets.length < (enteredFields "2,9").length := by
      rw [two]
      decide +kernel
    refine ⟨t, targets, reachable, waits, two, ?_, ?_⟩
    · obtain ⟨-, result, u, assigns, -, goes⟩ | ⟨refused, -⟩ :=
        input_all_or_nothing reachable waits "2,9"
      · rw [goes 4] at shown
        cases result with
        | error fault => simp at shown
        | ok _ =>
          simp only [if_neg enough] at shown
          exact ⟨u, assigns, shown⟩
      · exact absurd fine refused
    · obtain ⟨accepted, -⟩ | ⟨-, fault, -, -, -, again⟩ :=
        input_all_or_nothing reachable waits "2,X"
      · exact absurd accepted bad
      · intro cycles
        rw [again cycles, policy]
  next => cases stands

end Session

end NumberedBasic
