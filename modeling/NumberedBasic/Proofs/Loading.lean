import NumberedBasic.Proofs.BlockReading
import NumberedBasic.Proofs.StatementRules

/-!
# Programs that have been loaded

A program is put together line by line. `Program.Grown` is what holds of it after every line, and
`Program.formed_of_load` concludes that a program that was loaded from a source has the form that
its statements rely on.
-/

set_option autoImplicit false

namespace NumberedBasic.Program

variable {program : Program}

/-- The jumps of a line do not lead beyond its end. -/
def JumpsWithin (statements : List Statement) : Prop :=
  ∀ (i : Nat) (statement : Statement) (target : Nat), statements[i]? = some statement →
    statement.target? = some target → target ≤ statements.length

/-- A program that has been put together from lines whose jumps do not lead beyond their ends. -/
structure Grown (program : Program) : Prop where
  lines : ∀ line ∈ program.lines, JumpsWithin line.statements.toList
  starts : ∀ start ∈ program.dataStarts, start.2 ≤ program.data.size

/-- The jumps of such a program stay in their lines. -/
theorem Grown.formed (grown : Grown program) : program.Formed := by
  refine ⟨fun a statement target stands jumps => ?_, grown.starts⟩
  obtain ⟨line, found, inside⟩ := statementAt?_eq_some.mp stands
  rw [← Array.getElem?_toList] at inside
  exact ⟨line, found, grown.lines line (Array.mem_of_getElem? found) _ _ _ inside jumps⟩

/-- An empty program has no line with a jump. -/
theorem grown_empty : Grown empty := by
  constructor
  · intro line inside
    simp [empty] at inside
  · intro start inside
    simp [empty] at inside

/-- Noting the data of a statement. The data of earlier statements stay where they are. -/
theorem Grown.addData (grown : Grown program) (n : LineNumber) (statement : Statement) :
    Grown (program.addData n statement) := by
  unfold Program.addData
  split
  · next items =>
      refine ⟨grown.lines, fun start inside => ?_⟩
      have size : (program.data ++ items).size = program.data.size + items.length := by
        rw [← Array.length_toList]
        simp
      show start.2 ≤ (program.data ++ items).size
      rw [size]
      rcases Array.mem_push.mp inside with before | rfl
      · have bound := grown.starts start before
        omega
      · exact Nat.le_add_right _ _
  · exact grown

/-- Collecting data changes no jump. -/
theorem Grown.foldl_addData (n : LineNumber) (statements : List Statement) :
    Grown program → Grown (statements.foldl (Program.addData n) program) := by
  intro grown
  induction statements generalizing program with
  | nil => exact grown
  | cons statement statements ih => exact ih (grown.addData n statement)

/-- Adding a line whose jumps do not lead beyond its end. -/
theorem Grown.addLine (grown : Grown program) (n : LineNumber) {statements : List Statement}
    (within : JumpsWithin statements) : Grown (program.addLine n statements) := by
  have noted := Grown.foldl_addData n statements grown
  refine ⟨fun line inside => ?_, noted.starts⟩
  rcases Array.mem_push.mp inside with before | rfl
  · exact noted.lines line before
  · exact within

/-- The jumps of a line that can be read do not lead beyond its end. -/
theorem jumpsWithin_of_line {line : Line} {statements : List Statement}
    (h : line.statements = .ok statements) : JumpsWithin statements := by
  unfold Line.statements at h
  split at h
  · cases h
  · intro i statement target stands jumps
    exact (Block.lt_target_of_parse h stands jumps).2

/-- Adding lines keeps jumps within their lines. -/
theorem Grown.addAll {lines : List (LineNumber × Line)} {result : Program}
    (grown : Grown program) (h : program.addAll lines = .ok result) : Grown result := by
  fun_induction Program.addAll program lines with
  | case1 program =>
      cases h
      exact grown
  | case2 program n line rest statements read ih =>
      exact ih (grown.addLine n (jumpsWithin_of_line read)) h
  | case3 => cases h

/-- A program that was loaded has the form that its statements rely on. -/
theorem formed_of_load {source : String} (h : load source = .ok program) : program.Formed := by
  obtain ⟨listing, -, built⟩ := exists_of_bind_eq_ok h
  exact (grown_empty.addAll built).formed

end NumberedBasic.Program
