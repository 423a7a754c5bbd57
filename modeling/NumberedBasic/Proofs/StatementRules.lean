import NumberedBasic.Proofs.Blocks
import NumberedBasic.Proofs.EvaluationFrame

/-!
# What statements do to a session

Each command has a footprint, the parts of the session it may change. `perform_cases` says that a
statement waits for a reply and changes nothing, or changes no other part, keeps the session sound,
leads to a place in the program, and fails with ordinary faults only.

A session is sound (`Session.Sound`) if evaluation can rely on it and all places that are kept in it
belong to the program. `Program.Formed` is what this takes of the program: the jumps within its
lines and the starts of its data must not lead beyond their ends.
-/

set_option autoImplicit false

namespace NumberedBasic

namespace Program

/-- A program whose jumps within lines stay in their lines and whose data start among the data. -/
structure Formed (program : Program) : Prop where
  targets : ∀ a statement target, program.statementAt? a = some statement →
    statement.target? = some target → program.Covers ⟨a.line, target⟩
  starts : ∀ start ∈ program.dataStarts, start.2 ≤ program.data.size

/-- The data of a line start among the data of the program. -/
theorem Formed.dataPosition_le {program : Program} (formed : program.Formed) (n : LineNumber) :
    program.dataPosition n ≤ program.data.size := by
  unfold dataPosition
  split
  · next start found => exact formed.starts start (Array.mem_of_find?_eq_some found)
  · exact Nat.le_refl _

end Program

/-- A course that stays in the program and does not wait for a reply. -/
def Course.Fits (program : Program) : Course → Prop
  | .jump target => program.Covers target
  | .ask _ => False
  | .next | .finish | .stop => True

/-- The parts of a session that a command may change. -/
def Command.footprint : Command → List Session.Part
  | .clear _ => [.memory, .functions, .nextDatum]
  | .data .. | .remark _ | .finish _ | .stop _ | .goto .. => []
  | .define .. => [.functions]
  | .dimension .. | .assign .. | .onGoto .. => [.dice, .memory]
  | .loop .. => [.dice, .memory, .loops]
  | .next .. => [.memory, .loops]
  | .gosub .. | .returnBack _ => [.returns]
  | .onGosub .. => [.dice, .memory, .returns]
  | .input .. => [.dice, .memory, .reply, .column, .output]
  | .print .. => [.dice, .memory, .column, .output]
  | .read .. => [.dice, .memory, .nextDatum]
  | .restore .. => [.nextDatum]

/-- The parts of a session that a statement may change. -/
def Statement.footprint : Statement → List Session.Part
  | .run command => command.footprint
  | .branch .. => [.dice, .memory]
  | .skip .. => []

namespace Session

open Effect

/-- A session of a program all of whose parts belong to it. -/
structure Sound (program : Program) (config : Config) (s : Session) : Prop
    extends Ready program s where
  config_eq : s.config = config
  returns : ∀ a ∈ s.returns.entries, program.Covers a
  limit : s.returns.limit = config.stackLimit
  loops : ∀ loop ∈ s.loops.entries, program.Covers loop.body
  nextDatum : s.nextDatum ≤ program.data.size

variable {program : Program} {config : Config} {s t : Session}

/-- The parts that soundness does not depend on, or only through the types of the variables. -/
def freeParts : List Part :=
  [.clock, .place, .memory, .callDepth, .dice, .column, .output, .reply, .interrupted, .outcome]

/-- A session stays sound as long as its variables hold values of their types. -/
theorem Sound.of_only (sound : Sound program config s) (only : Only freeParts s t)
    (fits : t.memory.Fits) : Sound program config t := by
  have sameProgram : t.program = s.program := only .program (by decide)
  have sameConfig : t.config = s.config := only .config (by decide)
  have sameFunctions : t.functions = s.functions := only .functions (by decide)
  have sameReturns : t.returns = s.returns := only .returns (by decide)
  have sameLoops : t.loops = s.loops := only .loops (by decide)
  have sameDatum : t.nextDatum = s.nextDatum := only .nextDatum (by decide)
  refine ⟨⟨?_, fits, ?_⟩, ?_, ?_, ?_, ?_, ?_⟩
  · rw [sameProgram, sound.program_eq]
  · rw [sameFunctions]
    exact sound.defined
  · rw [sameConfig, sound.config_eq]
  · rw [sameReturns]
    exact sound.returns
  · rw [sameReturns, sound.limit]
  · rw [sameLoops]
    exact sound.loops
  · rw [sameDatum]
    exact sound.nextDatum

/-- Going to another place changes the place at most. -/
theorem only_moveTo (s : Session) (here : Address) : Only [.place] s { s with place := here } := by
  intro part
  cases part <;> simp

/-- Going to another place keeps a session sound. -/
theorem Sound.moveTo (sound : Sound program config s) (here : Address) :
    Sound program config { s with place := here } :=
  sound.of_only ((only_moveTo s here).mono (by decide)) sound.fits

/-- What is quiet keeps sessions sound and changes variables and random numbers at most. -/
theorem obeys_of_quiet {α : Type} {P : α → Prop} {x : Effect α}
    (h : Obeys (Ready program) Quiet P x) :
    Obeys (Sound program config) (Only [.dice, .memory]) P x := by
  refine Ensures.of_outcome fun s sound => ?_
  obtain ⟨ready, quiet, settled⟩ := h.outcome sound.toReady
  exact ⟨sound.of_only (quiet.only.mono (by decide)) ready.fits, quiet.only, settled⟩

/-- A change of parts that soundness does not depend on. -/
theorem obeys_modify {parts : List Part} {g : Session → Session}
    (only : ∀ s, Only parts s (g s)) (free : parts ⊆ freeParts)
    (fits : ∀ s, s.memory.Fits → (g s).memory.Fits) :
    Obeys (Sound program config) (Only parts) (fun _ => True) (modify g) :=
  Ensures.modify fun s sound =>
    ⟨sound.of_only ((only s).mono free) (fits s sound.fits), only s⟩

/-! ## Variables and arrays -/

/-- A memory with the same variables as another one. -/
theorem fits_of_scalars {memory other : Memory} (same : other.scalars = memory.scalars)
    (fits : memory.Fits) : other.Fits := by
  intro name
  have equal : other.fetch name = memory.fetch name := by
    unfold Memory.fetch
    rw [same]
  rw [equal]
  exact fits name

/-- An operation on the memory that keeps the types of the variables. -/
theorem obeys_updateMemory {f : Memory → Except Fault Memory}
    (h : ∀ memory, memory.Fits → Settles Fault.Ordinary Memory.Fits (f memory)) :
    Obeys (Sound program config) (Only [.memory]) (fun _ => True) (updateMemory f) := by
  refine (Ensures.get fun s sound => sound.fits).bind fun memory fits => ?_
  refine (Ensures.ofExcept (h memory fits)).bind fun updated fits => ?_
  refine obeys_modify (fun s part => ?_) (by decide) fun _ _ => fits
  cases part <;> simp

/-- Assigning to a variable changes memory at most. -/
theorem obeys_store (name : Name) (value : Value) :
    Obeys (Sound program config) (Only [.memory]) (fun _ => True) (store name value) := by
  refine obeys_updateMemory fun memory fits => (memory.computes_store name value).settles.imp ?_
  rintro _ ⟨rfl, valueFits⟩
  exact fits.put valueFits

/-- Evaluating an expression changes random numbers and memory at most. -/
theorem obeys_evaluate (e : Expr) :
    Obeys (Sound program config) (Only [.dice, .memory]) (fun _ => True) (evaluate e) :=
  obeys_of_quiet (quiet_evaluate e)

/-- Evaluating expressions changes random numbers and memory at most. -/
theorem obeys_evaluateAll (es : List Expr) :
    Obeys (Sound program config) (Only [.dice, .memory]) (fun _ => True) (evaluateAll es) :=
  obeys_of_quiet (quiet_evaluateAll es)

/-- Evaluating a number changes random numbers and memory at most. -/
theorem obeys_evaluateNumber (e : Expr) :
    Obeys (Sound program config) (Only [.dice, .memory]) (fun _ => True) (evaluateNumber e) :=
  obeys_of_quiet (quiet_evaluateNumber e)

/-- Assigning to a target changes random numbers and memory at most. -/
theorem obeys_assign (target : Target) (value : Value) :
    Obeys (Sound program config) (Only [.dice, .memory]) (fun _ => True) (assign target value) := by
  cases target with
  | scalar column i => exact (obeys_store i.name value).widen (by decide)
  | element e =>
      refine (obeys_evaluateAll e.subscripts).bind fun subscripts _ => ?_
      refine (Ensures.look _).bind fun memory _ => ?_
      refine (Obeys.compute (memory.computes_target e.name subscripts value)).bind
        fun offset _ => ?_
      refine obeys_modify (fun s part => ?_) (by decide) fun s fits => fits_of_scalars rfl fits
      cases part <;> simp

/-- Assigning to targets changes random numbers and memory at most. -/
theorem obeys_assignAll (targets : List Target) (values : List Value) :
    Obeys (Sound program config) (Only [.dice, .memory]) (fun _ => True)
      (assignAll targets values) := by
  fun_induction assignAll targets values with
  | case1 target targets value values ih => exact (obeys_assign target value).seq ih
  | case2 => exact Ensures.pure trivial

/-- A `DIM` changes random numbers and memory at most. -/
theorem obeys_dimension (arrays : List Element) :
    Obeys (Sound program config) (Only [.dice, .memory]) (fun _ => True) (dimension arrays) := by
  induction arrays with
  | nil => exact Ensures.pure trivial
  | cons e rest ih =>
      refine (obeys_evaluateAll e.subscripts).bind fun bounds _ => ?_
      have declared : Obeys (Sound program config) (Only [.memory]) (fun _ => True)
          (updateMemory (·.dimension e.name bounds)) :=
        obeys_updateMemory fun memory fits =>
          (memory.settles_dimension e.name bounds).imp fun _ same => fits_of_scalars same fits
      exact (declared.widen (by decide)).seq ih

/-! ## Jumps -/

/-- Looking for a line that the program lacks fails and names its number. -/
theorem findLine_of_none {n : LineNumber} (missing : s.program.findLine? n = none) :
    findLine n s = (.error { code := .undefinedLine, detail := toString n }, s) := by
  unfold findLine
  rw [bind_of_ok (x := Effect.get _) rfl, missing]
  rfl

/-- Looking for a line of the program yields its start. -/
theorem findLine_of_some {n : LineNumber} {a : Address}
    (found : s.program.findLine? n = some a) : findLine n s = (.ok a, s) := by
  unfold findLine
  rw [bind_of_ok (x := Effect.get _) rfl, found]
  rfl

/-- The line that is jumped to starts in the program. -/
theorem obeys_findLine (n : LineNumber) :
    Obeys (Sound program config) (Only []) program.Covers (findLine n) := by
  refine Ensures.bind (P := fun other => other = program)
    (Ensures.get fun s sound => sound.program_eq) fun other same => ?_
  rw [same]
  split
  · next a found => exact Ensures.pure (Program.covers_of_findLine? found)
  · exact Ensures.fail rfl

/-- A `GOTO` changes nothing, and stays in the program. -/
theorem obeys_goto (n : LineNumber) :
    Obeys (Sound program config) (Only []) (Course.Fits program) (goto n) :=
  (obeys_findLine n).bind fun _ covers => Ensures.pure covers

/-- Keeping a stack of places in the program to return to. -/
theorem Sound.setReturns (sound : Sound program config s) {returns : BoundedStack Address}
    (covers : ∀ a ∈ returns.entries, program.Covers a)
    (limit : returns.limit = config.stackLimit) :
    Sound program config { s with returns } :=
  { sound with returns := covers, limit }

/-- Keeping a stack of loops whose bodies are in the program. -/
theorem Sound.setLoops (sound : Sound program config s) {loops : BoundedStack Loop}
    (covers : ∀ loop ∈ loops.entries, program.Covers loop.body) :
    Sound program config { s with loops } :=
  { sound with loops := covers }

/-- A jump to a line from which the run comes back to the place after `here`. -/
theorem obeys_gosub {here : Address} (covers : program.Covers here.next) (n : LineNumber) :
    Obeys (Sound program config) (Only [.returns]) (Course.Fits program) (gosub here n) := by
  refine ((obeys_findLine n).widen (by decide)).bind fun target targetCovers => ?_
  refine Ensures.bind
    (P := fun returns : BoundedStack Address =>
      (∀ a ∈ returns.entries, program.Covers a) ∧ returns.limit = config.stackLimit)
    (Ensures.get fun s sound => ⟨sound.returns, sound.limit⟩) fun returns kept => ?_
  refine (Ensures.ofExcept (returns.settles_push here.next)).bind fun grown pushed => ?_
  refine (Ensures.modify fun s sound => ?_).seq (Ensures.pure targetCovers)
  refine ⟨sound.setReturns ?_ (pushed.1.trans kept.2), fun part => ?_⟩
  · rw [pushed.2]
    exact List.forall_mem_cons.mpr ⟨covers, kept.1⟩
  · cases part <;> simp

/-- A return to the last place that is kept. -/
theorem obeys_returnBack :
    Obeys (Sound program config) (Only [.returns]) (Course.Fits program) returnBack := by
  refine Ensures.bind
    (P := fun returns : BoundedStack Address => ∀ a ∈ returns.entries, program.Covers a)
    (Ensures.get fun s sound => sound.returns) fun returns covers => ?_
  split
  · next target top =>
      refine (Ensures.modify fun s sound => ?_).seq
        (Ensures.pure (covers target (List.mem_of_head? top)))
      refine ⟨sound.setReturns (fun a inside => ?_) sound.limit, fun part => ?_⟩
      · exact sound.returns a (List.mem_of_mem_tail inside)
      · cases part <;> simp
  · exact Ensures.fail rfl

/-- Selecting a line changes random numbers and memory at most. -/
theorem obeys_select (selector : Expr) (lines : List LineNumber) :
    Obeys (Sound program config) (Only [.dice, .memory]) (fun _ => True)
      (select selector lines) := by
  refine (obeys_evaluateNumber selector).bind fun x _ => ?_
  exact Ensures.ite (fun _ => Ensures.pure trivial) fun _ => Ensures.fail rfl

/-! ## Loops -/

/-- Passing a loop by changes nothing, and stays in the program. -/
theorem obeys_skipLoop (here : Address) (name : Name) :
    Obeys (Sound program config) (Only []) (Course.Fits program) (skipLoop here name) := by
  refine Ensures.bind (P := fun other => other = program)
    (Ensures.get fun s sound => sound.program_eq) fun other same => ?_
  rw [same]
  split
  · next target found => exact Ensures.pure (Program.covers_of_loopExit? found)
  · exact Ensures.fail rfl

/-- The loops that are left over were there before. -/
theorem mem_of_mem_leaveLoop {name : Name} {loops : BoundedStack Loop} {loop : Loop}
    (h : loop ∈ (leaveLoop name loops).entries) : loop ∈ loops.entries := by
  unfold leaveLoop at h
  split at h
  · exact List.mem_of_mem_drop h
  · exact h

/-- Evaluating the step of a loop changes random numbers and memory at most. -/
theorem obeys_loopStep (step : Option Expr) :
    Obeys (Sound program config) (Only [.dice, .memory]) (fun _ => True) (loopStep step) := by
  cases step with
  | some e => exact obeys_evaluateNumber e
  | none => exact Ensures.pure trivial

/-- Entering a loop whose body starts in the program. -/
theorem obeys_enterLoop {here : Address} (covers : program.Covers here.next) (name : Name)
    (first last : Expr) (step : Option Expr) :
    Obeys (Sound program config) (Only [.dice, .memory, .loops]) (Course.Fits program)
      (enterLoop here name first last step) := by
  refine ((obeys_evaluate first).widen (by decide)).bind fun value _ => ?_
  refine ((obeys_store name value).widen (by decide)).seq ?_
  refine (Obeys.compute value.computes_toNumber).bind fun x _ => ?_
  refine ((obeys_evaluateNumber last).widen (by decide)).bind fun limit _ => ?_
  refine ((obeys_loopStep step).widen (by decide)).bind fun step _ => ?_
  refine Ensures.ite (fun _ => Ensures.fail rfl) fun _ => ?_
  refine (Ensures.modify fun s sound => ?_).seq ?_
  · refine ⟨sound.setLoops fun loop inside => ?_, fun part => ?_⟩
    · exact sound.loops loop (mem_of_mem_leaveLoop inside)
    · cases part <;> simp
  refine Ensures.ite (fun _ => (obeys_skipLoop here name).widen (by decide)) fun _ => ?_
  refine Ensures.bind
    (P := fun loops : BoundedStack Loop => ∀ loop ∈ loops.entries, program.Covers loop.body)
    (Ensures.get fun s sound => sound.loops) fun loops kept => ?_
  refine (Ensures.ofExcept (loops.settles_push _)).bind fun grown pushed => ?_
  refine (Ensures.modify fun s sound => ?_).seq (Ensures.pure trivial)
  refine ⟨sound.setLoops ?_, fun part => ?_⟩
  · rw [pushed.2]
    exact List.forall_mem_cons.mpr ⟨covers, kept⟩
  · cases part <;> simp

/-- The loop that a `NEXT` continues is on the stack. -/
theorem lt_depth_of_loopIndex? {name : Option Name} {loops : BoundedStack Loop} {i : Nat}
    (h : loopIndex? name loops = some i) : i < loops.depth := by
  have counted := loops.counted
  unfold loopIndex? at h
  split at h
  · obtain ⟨j, found, rfl⟩ := Option.map_eq_some_iff.mp h
    have bound := (List.findIdx?_eq_some_iff_getElem.mp found).1
    omega
  · split at h
    · cases h
    · obtain rfl := Option.some.inj h
      omega

/-- The stack that is cut back to a loop has that loop on top. -/
theorem exists_top?_truncate {α : Type} {stack : BoundedStack α} {i : Nat} (h : i < stack.depth) :
    ∃ entry, (stack.truncate (i + 1)).top? = some entry := by
  have counted := (stack.truncate (i + 1)).counted
  have depth : (stack.truncate (i + 1)).depth = min stack.depth (i + 1) := rfl
  unfold BoundedStack.top?
  cases entries : (stack.truncate (i + 1)).entries with
  | nil =>
      rw [entries, List.length_nil] at counted
      omega
  | cons entry rest => exact ⟨entry, rfl⟩

/-- Moving the variable of a loop on. -/
theorem obeys_advanceLoop {loop : Loop} (covers : program.Covers loop.body) :
    Obeys (Sound program config) (Only [.memory, .loops]) (Course.Fits program)
      (advanceLoop loop) := by
  refine (Ensures.look _).bind fun memory _ => ?_
  refine (Obeys.compute (memory.fetch loop.name).computes_toNumber).bind fun x _ => ?_
  refine ((obeys_store loop.name _).widen (by decide)).seq ?_
  refine Ensures.ite (fun _ => Ensures.pure covers) fun _ => ?_
  refine (Ensures.modify fun s sound => ?_).seq (Ensures.pure trivial)
  refine ⟨sound.setLoops fun other inside => ?_, fun part => ?_⟩
  · exact sound.loops other (List.mem_of_mem_tail inside)
  · cases part <;> simp

/-- A `NEXT` cuts the stack back to the loop that it continues, and moves its variable on. -/
theorem continueLoop_of_index {name : Option Name} {s : Session} {i : Nat} {loop : Loop}
    (found : loopIndex? name s.loops = some i)
    (top : (s.loops.truncate (i + 1)).top? = some loop) :
    continueLoop name s = advanceLoop loop { s with loops := s.loops.truncate (i + 1) } := by
  unfold continueLoop
  rw [bind_of_ok (x := Effect.get _) rfl, found]
  dsimp only
  rw [bind_of_ok (x := Effect.modify _) rfl, bind_of_ok (x := Effect.get _) rfl, top]

/-- A `NEXT` finds no loop to continue, or cuts the stack back to one and moves its variable on. The
stack is never found empty after it has been cut back. -/
theorem continueLoop_cases (name : Option Name) (s : Session) :
    continueLoop name s = (.error { code := .nextWithoutFor, detail := name.getD "" }, s) ∨
      ∃ i loop, (s.loops.truncate (i + 1)).top? = some loop ∧
        continueLoop name s = advanceLoop loop { s with loops := s.loops.truncate (i + 1) } := by
  cases found : loopIndex? name s.loops with
  | none =>
      refine .inl ?_
      unfold continueLoop
      rw [bind_of_ok (x := Effect.get _) rfl, found]
      rfl
  | some i =>
      obtain ⟨loop, top⟩ := exists_top?_truncate (lt_depth_of_loopIndex? found)
      exact .inr ⟨i, loop, top, continueLoop_of_index found top⟩

/-- A `NEXT` changes memory and the open loops at most, and stays in the program. -/
theorem obeys_continueLoop (name : Option Name) :
    Obeys (Sound program config) (Only [.memory, .loops]) (Course.Fits program)
      (continueLoop name) := by
  refine Ensures.of_outcome fun s sound => ?_
  rcases continueLoop_cases name s with none | ⟨i, loop, top, whole⟩
  · rw [none]
    exact ⟨sound, Std.Refl.refl s, rfl⟩
  · let cut : Session := { s with loops := s.loops.truncate (i + 1) }
    have cutSound : Sound program config cut :=
      sound.setLoops fun loop inside => sound.loops loop (List.mem_of_mem_drop inside)
    have cutOnly : Only [.memory, .loops] s cut := by
      intro part
      cases part <;> simp [cut]
    have covers : program.Covers loop.body := cutSound.loops loop (List.mem_of_head? top)
    obtain ⟨kept, moved, settled⟩ := (obeys_advanceLoop covers).outcome cutSound
    rw [whole]
    exact ⟨kept, IsTrans.trans _ _ _ cutOnly moved, settled⟩

/-! ## Output, input and data -/

/-- Writing changes the text that waits and the column at most. -/
theorem obeys_write (text : String) :
    Obeys (Sound program config) (Only [.column, .output]) (fun _ => True) (write text) := by
  refine obeys_modify (fun s part => ?_) (by decide) fun _ fits => fits
  cases part <;> simp

/-- A relation that holds between the sessions before and after a text is written, and before and
after an evaluation. It then holds around every statement that writes. -/
structure Writing (program : Program) (config : Config) (R : Session → Session → Prop) : Prop where
  write : ∀ text, Obeys (Sound program config) R (fun _ => True) (write text)
  frame : ∀ s t, Only [.dice, .memory] s t → R s t

namespace Writing

variable {R : Session → Session → Prop} [IsPreorder Session R]

/-- Going to the next zone only writes. -/
theorem obeys_nextZone (writing : Writing program config R) :
    Obeys (Sound program config) R (fun _ => True) nextZone :=
  (Ensures.look _).bind fun _ _ =>
    (Ensures.look _).bind fun _ _ => writing.write _

/-- A `TAB` only writes. -/
theorem obeys_tabTo (writing : Writing program config R) (x : Float) :
    Obeys (Sound program config) R (fun _ => True) (tabTo x) := by
  have blanks (target : Nat) : Obeys (Sound program config) R (fun _ => True) (do
      let column ← Effect.get Session.column
      writeBlanks (target - column)) :=
    (Ensures.look _).bind fun _ _ => writing.write _
  refine Ensures.ite (fun _ => ?_) fun _ => Ensures.fail rfl
  refine (Ensures.look _).bind fun column _ => ?_
  exact Ensures.ite (fun _ => (writing.write _).seq (blanks _)) fun _ => blanks _

/-- Printing an item only evaluates and writes. -/
theorem obeys_printItem (writing : Writing program config R) (item : PrintItem) :
    Obeys (Sound program config) R (fun _ => True) (printItem item) := by
  cases item with
  | comma column => exact writing.obeys_nextZone
  | semicolon column => exact Ensures.pure trivial
  | value e =>
      unfold printItem
      dsimp only
      split
      · next argument _ =>
          exact ((obeys_evaluateNumber argument).loosen writing.frame).bind fun x _ =>
            writing.obeys_tabTo x
      · exact ((obeys_evaluate e).loosen writing.frame).bind fun value _ => writing.write _

/-- Printing items only evaluates and writes. -/
theorem obeys_printItems (writing : Writing program config R) (newline : Bool)
    (items : List PrintItem) :
    Obeys (Sound program config) R (fun _ => True) (printItems newline items) := by
  induction items generalizing newline with
  | nil => exact Ensures.pure trivial
  | cons item items ih => exact (writing.obeys_printItem item).seq (ih _)

/-- A `PRINT` only evaluates and writes. -/
theorem obeys_print (writing : Writing program config R) (items : List PrintItem) :
    Obeys (Sound program config) R (fun _ => True) (print items) :=
  (writing.obeys_printItems true items).bind fun _ _ =>
    Ensures.ite (fun _ => writing.write _) fun _ => Ensures.pure trivial

/-- Assigning the fields of a reply. One that is refused is asked for again at `here`. -/
theorem obeys_useReply (writing : Writing program config R) {here : Address}
    (covers : program.Covers here) (targets : List Target) (reply : String) :
    Obeys (Sound program config) R (Course.Fits program) (useReply here targets reply) := by
  have settled :=
    (computes_replyValues (targets.map Target.ident) (ReplyField.ofReply reply)).settles
  unfold useReply
  dsimp only
  split
  · next values _ =>
      refine ((obeys_assignAll targets values).loosen writing.frame).seq ?_
      exact Ensures.ite (fun _ => (writing.write _).seq (Ensures.pure trivial))
        fun _ => Ensures.pure trivial
  · next fault refused =>
      rw [refused] at settled
      refine (Ensures.look _).bind fun _ _ => ?_
      split
      · exact (writing.write _).seq (Ensures.pure covers)
      · exact Ensures.fail settled

end Writing

/-- Statements that write change these parts at most. -/
theorem writing_only :
    Writing program config (Only [.dice, .memory, .column, .output]) where
  write text := (obeys_write text).widen (by decide)
  frame _ _ only := only.mono (by decide)

/-- As long as no reply has been supplied, one is asked for and nothing is changed. -/
theorem input_of_none (here : Address) (prompt : String) (targets : List Target)
    (missing : s.reply = none) : input here prompt targets s = (.ok (.ask prompt), s) := by
  have taken : takeReply s = (.ok none, s) := by
    unfold takeReply
    rw [bind_of_ok (x := Effect.get _) rfl, missing]
    rfl
  unfold input
  rw [bind_of_ok taken]
  rfl

/-- A reply that has been supplied is used up. -/
theorem input_of_some (here : Address) (prompt : String) (targets : List Target) {reply : String}
    (supplied : s.reply = some reply) :
    input here prompt targets s =
      useReply here targets reply { s with reply := none, column := 0 } := by
  have taken : takeReply s = (.ok (some reply), { s with reply := none, column := 0 }) := by
    unfold takeReply
    rw [bind_of_ok (x := Effect.get _) rfl, supplied]
    rfl
  unfold input
  rw [bind_of_ok taken]

/-- Taking a reply changes the reply and the column at most. -/
theorem only_takeReply (s : Session) :
    Only [.reply, .column] s { s with reply := none, column := 0 } := by
  intro part
  cases part <;> simp

/-- Taking a reply keeps a session sound. -/
theorem Sound.takeReply (sound : Sound program config s) :
    Sound program config { s with reply := none, column := 0 } :=
  sound.of_only ((only_takeReply s).mono (by decide)) sound.fits

/-- Where the data are used up, taking an item fails. -/
theorem takeDatum_of_none (usedUp : s.program.data[s.nextDatum]? = none) :
    takeDatum s = (.error { code := .outOfData }, s) := by
  unfold takeDatum
  rw [bind_of_ok (x := Effect.get _) rfl, usedUp]
  rfl

/-- Where there is a data item, it is taken and the next one is ahead. -/
theorem takeDatum_of_some {datum : Datum} (found : s.program.data[s.nextDatum]? = some datum) :
    takeDatum s = (.ok datum, { s with nextDatum := s.nextDatum + 1 }) := by
  unfold takeDatum
  rw [bind_of_ok (x := Effect.get _) rfl, found]
  rfl

/-- Taking the next data item. There is one more behind it, or the data are used up. -/
theorem obeys_takeDatum :
    Obeys (Sound program config) (Only [.nextDatum]) (fun _ => True) takeDatum := by
  refine Ensures.of_outcome fun s sound => ?_
  cases found : s.program.data[s.nextDatum]? with
  | none =>
      rw [takeDatum_of_none found]
      exact ⟨sound, Std.Refl.refl s, rfl⟩
  | some datum =>
      have bound := (Array.getElem?_eq_some_iff.mp found).1
      rw [sound.program_eq] at bound
      rw [takeDatum_of_some found]
      refine ⟨{ sound with nextDatum := bound }, fun part => ?_, trivial⟩
      cases part <;> simp

/-- A `READ` changes random numbers, memory and the position in the data at most. -/
theorem obeys_read (targets : List Target) :
    Obeys (Sound program config) (Only [.dice, .memory, .nextDatum]) (fun _ => True)
      (read targets) := by
  induction targets with
  | nil => exact Ensures.pure trivial
  | cons target targets ih =>
      refine (obeys_takeDatum.widen (by decide)).bind fun datum _ => ?_
      refine (Obeys.compute (computes_datumValue target.ident datum)).bind fun value _ => ?_
      exact ((obeys_assign target value).widen (by decide)).seq ih

/-- Going back in the data. -/
theorem obeys_restore (formed : program.Formed) (line : Option LineNumber) :
    Obeys (Sound program config) (Only [.nextDatum]) (fun _ => True) (restore line) := by
  cases line with
  | none =>
      refine Ensures.modify fun s sound =>
        ⟨{ sound with nextDatum := Nat.zero_le _ }, fun part => ?_⟩
      cases part <;> simp
  | some n =>
      refine ((obeys_findLine n).widen (by decide)).bind fun _ _ => ?_
      refine Ensures.modify fun s sound => ⟨{ sound with nextDatum := ?_ }, fun part => ?_⟩
      · rw [sound.program_eq]
        exact formed.dataPosition_le n
      · cases part <;> simp

/-- A `CLEAR` changes memory, functions and the position in the data at most. -/
theorem obeys_clear :
    Obeys (Sound program config) (Only [.memory, .functions, .nextDatum]) (fun _ => True)
      clear := by
  refine Ensures.modify fun s sound => ⟨{ sound with
    fits := Memory.fits_empty
    defined := fun name a found => ?_
    nextDatum := Nat.zero_le _ }, fun part => ?_⟩
  · simp at found
  · cases part <;> simp

/-- Defining a function whose definition stands at `here`. -/
theorem obeys_define {here : Address} {name : Name} (defines : program.Defines here name) :
    Obeys (Sound program config) (Only [.functions]) (fun _ => True)
      (modify fun s => { s with functions := s.functions.insert name here }) := by
  refine Ensures.modify fun s sound => ⟨{ sound with
    defined := fun other a found => ?_ }, fun part => ?_⟩
  · rw [Std.TreeMap.getElem?_insert] at found
    split at found
    · next same =>
        obtain rfl := Option.some.inj found
        obtain rfl := Std.LawfulEqOrd.eq_of_compare same
        exact defines
    · exact sound.defined other a found
  · cases part <;> simp

/-! ## All statements -/

/-- What is done before the next statement decides how it goes. -/
theorem andNext_apply (effect : Effect Unit) (s : Session) :
    andNext effect s = ((effect s).1.map fun _ => .next, (effect s).2) := by
  unfold andNext
  rcases done : effect s with ⟨result, t⟩
  cases result with
  | error fault =>
      rw [bind_of_error done]
      rfl
  | ok _ =>
      rw [bind_of_ok done]
      rfl

/-- Going on with the next statement changes nothing by itself. -/
theorem andNext_snd (effect : Effect Unit) (s : Session) :
    (andNext effect s).2 = (effect s).2 := by
  rw [andNext_apply]

/-- What a command changes it changes as a statement as well. -/
theorem obeys_andNext {parts : List Part} {effect : Effect Unit}
    (h : Obeys (Sound program config) (Only parts) (fun _ => True) effect) :
    Obeys (Sound program config) (Only parts) (Course.Fits program) (andNext effect) :=
  h.seq (Ensures.pure trivial)

/-- A command other than `INPUT` changes its footprint at most, keeps the session sound and leads to
a place in the program. -/
theorem obeys_performCommand (formed : program.Formed) {here : Address} {command : Command}
    (stands : program.statementAt? here = some (.run command))
    (noInput : ∀ column prompt targets, command ≠ .input column prompt targets) :
    Obeys (Sound program config) (Only command.footprint) (Course.Fits program)
      (performCommand here command) := by
  have coversNext : program.Covers here.next := Program.covers_next stands
  cases command with
  | clear column => exact obeys_andNext obeys_clear
  | data | remark | finish | stop => exact Ensures.pure trivial
  | define column i parameters body =>
      exact obeys_andNext (obeys_define ⟨column, i, parameters, body, rfl, stands⟩)
  | dimension column arrays => exact obeys_andNext (obeys_dimension arrays)
  | loop column i first last step => exact obeys_enterLoop coversNext i.name first last step
  | gosub column n => exact obeys_gosub coversNext n
  | goto column n => exact obeys_goto n
  | input column prompt targets => exact absurd rfl (noInput column prompt targets)
  | assign column target value =>
      exact (obeys_evaluate value).bind fun x _ =>
        (obeys_assign target x).seq (Ensures.pure trivial)
  | next column i => exact obeys_continueLoop (i.map Ident.name)
  | onGoto column selector lines =>
      refine (obeys_select selector lines).bind fun chosen _ => ?_
      cases chosen with
      | some n => exact (obeys_goto n).widen (by decide)
      | none => exact Ensures.pure trivial
  | onGosub column selector lines =>
      show Obeys _ (Only [.dice, .memory, .returns]) _ _
      refine ((obeys_select selector lines).widen (by decide)).bind fun chosen _ => ?_
      cases chosen with
      | some n => exact (obeys_gosub coversNext n).widen (by decide)
      | none => exact Ensures.pure trivial
  | print column items => exact obeys_andNext (writing_only.obeys_print items)
  | read column targets => exact obeys_andNext (obeys_read targets)
  | restore column line => exact obeys_andNext (obeys_restore formed line)
  | returnBack column => exact obeys_returnBack

/-- What a statement can do in a sound session: wait for a reply and change nothing, or change its
footprint at most, keep the session sound and lead to a place in the program or to an ordinary
fault. -/
theorem perform_cases (formed : program.Formed) {here : Address} {statement : Statement}
    (stands : program.statementAt? here = some statement) (sound : Sound program config s) :
    (∃ prompt, perform here statement s = (.ok (.ask prompt), s)) ∨
      (Sound program config (perform here statement s).2 ∧
        Only statement.footprint s (perform here statement s).2 ∧
        Settles Fault.Ordinary (Course.Fits program) (perform here statement s).1) := by
  have covers : program.Covers here := Program.covers_of_statementAt? stands
  cases statement with
  | branch column predicate target =>
      have targetCovers := formed.targets here _ target stands rfl
      have obeys : Obeys (Sound program config) (Only [.dice, .memory]) (Course.Fits program)
          (perform here (.branch column predicate target)) :=
        (obeys_evaluate predicate).bind fun value _ =>
          Ensures.ite (fun _ => Ensures.pure trivial) fun _ => Ensures.pure targetCovers
      exact .inr (obeys.outcome sound)
  | skip column target =>
      exact .inr ⟨sound, Std.Refl.refl s, formed.targets here _ target stands rfl⟩
  | run command =>
      by_cases isInput : ∃ column prompt targets, command = .input column prompt targets
      · obtain ⟨column, prompt, targets, rfl⟩ := isInput
        cases reply : s.reply with
        | none => exact .inl ⟨prompt, input_of_none here prompt targets reply⟩
        | some text =>
            let taken : Session := { s with reply := none, column := 0 }
            have takenOnly : Only [.dice, .memory, .reply, .column, .output] s taken :=
              (only_takeReply s).mono (by decide)
            obtain ⟨kept, moved, settled⟩ :=
              (writing_only.obeys_useReply covers targets text).outcome sound.takeReply
            have whole : perform here (.run (.input column prompt targets)) s =
                useReply here targets text taken :=
              input_of_some here prompt targets reply
            have movedOnly : Only [.dice, .memory, .reply, .column, .output] taken _ :=
              moved.mono (by decide)
            rw [whole]
            exact .inr ⟨kept, IsTrans.trans _ _ _ takenOnly movedOnly, settled⟩
      · refine .inr ((obeys_performCommand formed stands ?_).outcome sound)
        rintro column prompt targets rfl
        exact isInput ⟨column, prompt, targets, rfl⟩

end Session

end NumberedBasic
