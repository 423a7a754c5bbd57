import Mathlib.Data.List.Sort
import NumberedBasic.Proofs.Places

/-!
# The statements of a program in order

`Program.statements` lists the statements of a program line by line, and `Program.statement?` finds
the one at a place or, where none stands, the next one. The two belong together: what is found at a
place is the first of the statements from there on, and those that are left are the statements from
the place after it on (`statementsFrom_of_some`). So a run that moves on from each place to the next
comes by the statements of the list one by one, lines without statements and ends of lines included.

The list is known by its members (`mem_statements`) and its order (`pairwise_statements`), and what
is found is known as the least place that is not before the one given (`statement?_least`).
-/

set_option autoImplicit false

namespace NumberedBasic

namespace Address

/-- Whether a place comes before another one in the program. -/
def isBefore (a b : Address) : Bool :=
  a.line < b.line || (a.line == b.line && a.offset < b.offset)

variable {a b c : Address}

/-- A place is before another one if its line is, or if it is before it in the same line. -/
theorem isBefore_iff :
    a.isBefore b = true ↔ a.line < b.line ∨ a.line = b.line ∧ a.offset < b.offset := by
  simp [isBefore]

/-- Nothing is before the start. -/
theorem not_isBefore_start (a : Address) : a.isBefore start = false := by
  simp [isBefore, start]

/-- A place is at another one, before it or after it. -/
theorem isBefore_or_eq_or_isBefore (a b : Address) :
    a.isBefore b = true ∨ a = b ∨ b.isBefore a = true := by
  obtain ⟨line, offset⟩ := a
  obtain ⟨line', offset'⟩ := b
  rw [isBefore_iff, isBefore_iff, Address.mk.injEq]
  dsimp only
  omega

/-- The order of places is transitive. -/
theorem isBefore_trans (first : a.isBefore b = true) (second : b.isBefore c = true) :
    a.isBefore c = true := by
  rw [isBefore_iff] at first second ⊢
  omega

/-- No place is before itself. -/
theorem isBefore_irrefl (a : Address) : a.isBefore a = false := by
  simp [isBefore]

/-- Nothing stands between a place and the one right after it. -/
theorem isBefore_next_iff : b.isBefore a.next = false ↔ a.isBefore b = true := by
  rw [Bool.eq_false_iff, ne_eq, isBefore_iff, isBefore_iff]
  dsimp only [next]
  omega

end Address

namespace Program

variable {program : Program} {a b : Address} {statement : Statement}

/-- The statements of a program in order, each with its place. -/
def statements (program : Program) : List (Address × Statement) :=
  program.lines.toList.zipIdx.flatMap fun (line, i) =>
    line.statements.toList.zipIdx.map fun (statement, j) => (⟨i, j⟩, statement)

/-- The statements after a place. -/
def statementsAfter (program : Program) (a : Address) : List (Address × Statement) :=
  program.statements.filter fun (b, _) => a.isBefore b

/-- The statements at a place and after it. -/
def statementsFrom (program : Program) (a : Address) : List (Address × Statement) :=
  program.statements.filter fun (b, _) => !b.isBefore a

/-- One statement stands before another one. -/
def Sooner (p q : Address × Statement) : Prop :=
  p.1.isBefore q.1 = true

instance : Std.Irrefl Sooner where
  irrefl p := by simp [Sooner, Address.isBefore_irrefl]

instance : Std.Antisymm Sooner where
  antisymm p q first second := by
    have round := Address.isBefore_trans first second
    rw [Address.isBefore_irrefl] at round
    cases round

/-- The list holds each statement with its place. -/
theorem mem_statements : (a, statement) ∈ program.statements ↔
    program.statementAt? a = some statement := by
  constructor
  · intro listed
    simp only [statements, List.mem_flatMap, List.mem_map, Prod.mk.injEq, Prod.exists] at listed
    obtain ⟨line, i, inLines, found, j, inLine, rfl, rfl⟩ := listed
    refine statementAt?_eq_some.mpr ⟨line, ?_, ?_⟩
    · simpa using List.mem_zipIdx_iff_getElem?.mp inLines
    · simpa using List.mem_zipIdx_iff_getElem?.mp inLine
  · intro stands
    obtain ⟨line, found, inside⟩ := statementAt?_eq_some.mp stands
    refine List.mem_flatMap.mpr
      ⟨(line, a.line), ?_, List.mem_map.mpr ⟨(statement, a.offset), ?_, rfl⟩⟩
    · exact List.mem_zipIdx_iff_getElem?.mpr (by simpa using found)
    · exact List.mem_zipIdx_iff_getElem?.mpr (by simpa using inside)

/-- The indices of a list that is numbered ascend. -/
theorem pairwise_zipIdx {α : Type} (l : List α) (start : Nat) :
    (l.zipIdx start).Pairwise fun p q => p.2 < q.2 := by
  induction l generalizing start with
  | nil => exact .nil
  | cons first rest ih =>
      rw [List.zipIdx_cons, List.pairwise_cons]
      refine ⟨fun pair inside => ?_, ih (start + 1)⟩
      have bound := List.le_snd_of_mem_zipIdx inside
      omega

/-- The list goes from each place to a later one. -/
theorem pairwise_statements (program : Program) : program.statements.Pairwise Sooner := by
  unfold statements
  rw [List.pairwise_flatMap]
  constructor
  · rintro ⟨line, i⟩ -
    rw [List.pairwise_map]
    refine (pairwise_zipIdx _ 0).imp fun {p q} less => ?_
    exact Address.isBefore_iff.mpr (.inr ⟨rfl, less⟩)
  · refine (pairwise_zipIdx _ 0).imp fun {p q} less first inFirst second inSecond => ?_
    obtain ⟨_, -, rfl⟩ := List.mem_map.mp inFirst
    obtain ⟨_, -, rfl⟩ := List.mem_map.mp inSecond
    exact Address.isBefore_iff.mpr (.inl less)

/-- Behind the end of a line, what comes before the next line comes before the place. -/
theorem isBefore_of_isBefore_nextLine {c : Address} (bound : a.line < program.lines.size)
    (ended : program.lines[a.line].statements[a.offset]? = none)
    (stands : program.statementAt? c = some statement)
    (before : c.isBefore ⟨a.line + 1, 0⟩ = true) : c.isBefore a = true := by
  obtain ⟨line, inLines, inLine⟩ := statementAt?_eq_some.mp stands
  rw [Address.isBefore_iff] at before ⊢
  by_cases same : c.line = a.line
  · rw [same, Array.getElem?_eq_getElem bound] at inLines
    cases inLines
    have inside := (Array.getElem?_eq_some_iff.mp inLine).1
    have outside := Array.getElem?_eq_none_iff.mp ended
    omega
  · dsimp only at before
    omega

/-- What is found is not before the place given, and no other statement comes between. -/
theorem statement?_least (found : program.statement? a = some (b, statement)) :
    b.isBefore a = false ∧ ∀ c other, program.statementAt? c = some other →
      c.isBefore a = true ∨ c = b ∨ b.isBefore c = true := by
  fun_induction statement? program a with
  | case1 a bound here stands =>
      cases found
      exact ⟨Address.isBefore_irrefl _, fun c _ _ => Address.isBefore_or_eq_or_isBefore c _⟩
  | case2 a bound ended ih =>
      obtain ⟨notBefore, least⟩ := ih found
      refine ⟨?_, fun c other stands => ?_⟩
      · rw [Bool.eq_false_iff, ne_eq, Address.isBefore_iff] at notBefore ⊢
        dsimp only at notBefore
        omega
      · rcases least c other stands with before | later
        · exact .inl (isBefore_of_isBefore_nextLine bound ended stands before)
        · exact .inr later
  | case3 a outside => cases found

/-- Nothing is found only behind the last statement. -/
theorem isBefore_of_statement?_eq_none (nothing : program.statement? a = none) {c : Address}
    (stands : program.statementAt? c = some statement) : c.isBefore a = true := by
  fun_induction statement? program a with
  | case1 a bound here found => cases nothing
  | case2 a bound ended ih => exact isBefore_of_isBefore_nextLine bound ended stands (ih nothing)
  | case3 a outside =>
      obtain ⟨line, inLines, -⟩ := statementAt?_eq_some.mp stands
      have inProgram := (Array.getElem?_eq_some_iff.mp inLines).1
      exact Address.isBefore_iff.mpr (.inl (by omega))

/-- The statements from a place on are those of the program whose places are not before it. -/
theorem mem_statementsFrom : (b, statement) ∈ program.statementsFrom a ↔
    program.statementAt? b = some statement ∧ b.isBefore a = false := by
  simp [statementsFrom, mem_statements]

/-- The statements after a place are those from the place right after it on. -/
theorem statementsAfter_eq (program : Program) (a : Address) :
    program.statementsAfter a = program.statementsFrom a.next := by
  unfold statementsAfter statementsFrom
  refine List.filter_congr fun (b, _) _ => ?_
  rw [Bool.eq_iff_iff, ← Address.isBefore_next_iff, Bool.not_eq_true']

/-- The statements from a place on are in order. -/
theorem pairwise_statementsFrom (program : Program) (a : Address) :
    (program.statementsFrom a).Pairwise Sooner :=
  (pairwise_statements program).filter _

/-- The first of the statements from a place on is the one that is found there, and the others are
those from the place after it on. -/
theorem statementsFrom_of_some (found : program.statement? a = some (b, statement)) :
    program.statementsFrom a = (b, statement) :: program.statementsFrom b.next := by
  obtain ⟨notBefore, least⟩ := statement?_least found
  have stands := statementAt?_of_statement? found
  refine (pairwise_statementsFrom program a).eq_of_mem_iff ?_ ?_
  · refine List.pairwise_cons.mpr ⟨?_, pairwise_statementsFrom program b.next⟩
    rintro ⟨c, other⟩ inside
    exact Address.isBefore_next_iff.mp (mem_statementsFrom.mp inside).2
  · rintro ⟨c, other⟩
    rw [List.mem_cons, mem_statementsFrom, mem_statementsFrom, Address.isBefore_next_iff]
    constructor
    · rintro ⟨there, notEarlier⟩
      rcases least c other there with earlier | rfl | later
      · rw [notEarlier] at earlier
        cases earlier
      · rw [stands] at there
        cases there
        exact .inl rfl
      · exact .inr ⟨there, later⟩
    · rintro (same | ⟨there, later⟩)
      · cases same
        exact ⟨stands, notBefore⟩
      · refine ⟨there, Bool.eq_false_iff.mpr fun earlier => ?_⟩
        rw [Address.isBefore_trans later earlier] at notBefore
        cases notBefore

/-- Where nothing is found, there are no more statements. -/
theorem statementsFrom_of_none (nothing : program.statement? a = none) :
    program.statementsFrom a = [] := by
  refine List.eq_nil_iff_forall_not_mem.mpr ?_
  rintro ⟨c, other⟩ inside
  obtain ⟨stands, notBefore⟩ := mem_statementsFrom.mp inside
  rw [isBefore_of_statement?_eq_none nothing stands] at notBefore
  cases notBefore

/-- From the start on there are all statements. -/
theorem statementsFrom_start (program : Program) :
    program.statementsFrom Address.start = program.statements := by
  simp [statementsFrom, Address.not_isBefore_start]

end Program

end NumberedBasic
