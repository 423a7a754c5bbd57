import NumberedBasic.Session.Perform

/-!
# Places in a program

A place holds a statement (`Program.statementAt?`), or is the end of a line; both are covered by the
program (`Program.Covers`), and so have a line number. The ways a run finds its next place all lead
to places that are covered: the statement at or after a place (`statementAt?_of_statement?`), the
start of a line (`covers_of_findLine?`), and the end of a loop that is passed over
(`covers_of_loopExit?`).
-/

set_option autoImplicit false

namespace NumberedBasic.Program

variable {program : Program} {a b : Address} {statement : Statement}

/-- The statement that stands exactly at a place. -/
def statementAt? (program : Program) (a : Address) : Option Statement :=
  program.lines[a.line]?.bind fun line => line.statements[a.offset]?

/-- A place in a line of the program, its end included. -/
def Covers (program : Program) (a : Address) : Prop :=
  ∃ line, program.lines[a.line]? = some line ∧ a.offset ≤ line.statements.size

/-- The definition of a function with a name stands at a place. -/
def Defines (program : Program) (a : Address) (name : Name) : Prop :=
  ∃ column i parameters body, i.name = name ∧
    program.statementAt? a = some (.run (.define column i parameters body))

/-- A place in a program is in a line with a number. -/
theorem Covers.lineNumber?_isSome (h : program.Covers a) : (program.lineNumber? a).isSome := by
  obtain ⟨line, found, -⟩ := h
  simp [lineNumber?, found]

/-- A place that holds a statement is before the end of its line. -/
theorem statementAt?_eq_some :
    program.statementAt? a = some statement ↔
      ∃ line, program.lines[a.line]? = some line ∧ line.statements[a.offset]? = some statement := by
  simp [statementAt?, Option.bind_eq_some_iff]

/-- A place with a statement is in the program. -/
theorem covers_of_statementAt? (h : program.statementAt? a = some statement) :
    program.Covers a := by
  obtain ⟨line, found, inside⟩ := statementAt?_eq_some.mp h
  have bound := (Array.getElem?_eq_some_iff.mp inside).1
  exact ⟨line, found, Nat.le_of_lt bound⟩

/-- The place after a statement is in the program. -/
theorem covers_next (h : program.statementAt? a = some statement) : program.Covers a.next := by
  obtain ⟨line, found, inside⟩ := statementAt?_eq_some.mp h
  have bound := (Array.getElem?_eq_some_iff.mp inside).1
  exact ⟨line, found, bound⟩

/-- The statement at a place that holds one is that statement. -/
theorem statement?_of_statementAt? (h : program.statementAt? a = some statement) :
    program.statement? a = some (a, statement) := by
  obtain ⟨line, found, inside⟩ := statementAt?_eq_some.mp h
  obtain ⟨bound, rfl⟩ := Array.getElem?_eq_some_iff.mp found
  rw [statement?, dif_pos bound, inside]

/-- The statement that is found at or after a place stands where it is said to. -/
theorem statementAt?_of_statement? (h : program.statement? a = some (b, statement)) :
    program.statementAt? b = some statement := by
  fun_induction statement? program a with
  | case1 a bound found inside =>
      cases h
      exact statementAt?_eq_some.mpr ⟨_, Array.getElem?_eq_getElem bound, inside⟩
  | case2 a bound outside ih => exact ih h
  | case3 a outside => cases h

/-- A line that is found by its number has that number. -/
theorem of_search_eq_some {lines : Array ProgramLine} {n : LineNumber} {low high i : Nat}
    (h : search lines n low high = some i) :
    low ≤ i ∧ i < high ∧ ∃ line, lines[i]? = some line ∧ line.number = n := by
  fun_induction search lines n low high with
  | case1 low high bounds middle bound found same =>
      obtain rfl := Option.some.inj h
      exact ⟨by omega, by omega, _, Array.getElem?_eq_getElem bound, same⟩
  | case2 low high bounds middle bound found other less ih =>
      obtain ⟨above, below, numbered⟩ := ih h
      exact ⟨by omega, below, numbered⟩
  | case3 low high bounds middle bound found other less ih =>
      obtain ⟨above, below, numbered⟩ := ih h
      exact ⟨above, by omega, numbered⟩
  | case4 => cases h

/-- The start of a line that is found by its number is in the program. -/
theorem covers_of_findLine? {n : LineNumber} (h : program.findLine? n = some a) :
    program.Covers a := by
  obtain ⟨i, found, rfl⟩ := Option.map_eq_some_iff.mp h
  obtain ⟨-, -, line, stands, -⟩ := of_search_eq_some found
  exact ⟨line, stands, Nat.zero_le _⟩

/-- A loop that is passed over ends at the place of a statement or right after one. -/
theorem covers_of_loopExit? {name : Name} {depth : Nat} {cursor : Address}
    (h : program.loopExit? name depth cursor = some a) : program.Covers a := by
  fun_induction loopExit? program name depth cursor with
  | case1 => cases h
  | case2 _ _ _ _ _ _ _ _ _ _ ih | case5 _ _ _ _ _ _ _ ih | case6 _ _ _ _ _ _ _ _ _ _ ih =>
      exact ih h
  | case3 cursor b column other found =>
      have standing := statementAt?_of_statement? found
      obtain rfl := Option.some.inj h
      split
      · exact covers_next standing
      · exact covers_of_statementAt? standing
  | case4 cursor b column found =>
      obtain rfl := Option.some.inj h
      exact covers_next (statementAt?_of_statement? found)

end NumberedBasic.Program
