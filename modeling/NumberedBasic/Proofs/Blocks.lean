import NumberedBasic.Statement

/-!
# Nested lines and flat lines

A line as it is written is a block: commands, of which the last may be an `IF` with a block for each
outcome. It is stored flat, with jumps between its parts. `Block.flatten` lays a block out, and
`Block.walk_flatten` says that following the jumps visits the commands that the block visits, for
every way its predicates may come out. `Block.lt_target` bounds the jumps.
-/

set_option autoImplicit false

namespace NumberedBasic

/-- Commands in order, ended by nothing, by an `IF` without an `ELSE`, or by an `IF` with one. -/
inductive Block where
  | done
  | plain (command : Command) (rest : Block)
  | ifThen (column : Span) (predicate : Expr) (yes : Block)
  | ifElse (column : Span) (predicate : Expr) (yes : Block) (elseColumn : Span) (no : Block)

namespace Statement

/-- Where a jump within a line goes. -/
def target? : Statement → Option Nat
  | .run _ => none
  | .branch _ _ target => some target
  | .skip _ target => some target

/-- The offset after that of a statement at `offset`: an `IF` whose predicate does not hold and an
`ELSE` go to their targets, and all others to the next statement. -/
def following (offset : Nat) (holds : Bool) : Statement → Nat
  | .run _ => offset + 1
  | .branch _ _ target => if holds then offset + 1 else target
  | .skip _ target => target

/-- The commands that are visited at a statement. -/
def commands : Statement → List Command
  | .run command => [command]
  | .branch .. | .skip .. => []

/-- Following the statements of a line from one offset to another one visits some commands. Whether
the predicate at an offset holds is given by `truth`. -/
inductive Walk (code : List Statement) (truth : Nat → Bool) : Nat → List Command → Nat → Prop
  | here (offset : Nat) : Walk code truth offset [] offset
  | step {offset stop : Nat} {statement : Statement} {visited : List Command}
      (stands : code[offset]? = some statement)
      (rest : Walk code truth (statement.following offset (truth offset)) visited stop) :
      Walk code truth offset (statement.commands ++ visited) stop

namespace Walk

variable {code : List Statement} {truth : Nat → Bool} {i j k : Nat} {cs ds : List Command}

variable {column : Span} {predicate : Expr} {target : Nat}

/-- At an `IF` whose predicate holds, a walk goes on with the next statement. -/
theorem holds (stands : code[i]? = some (.branch column predicate target)) (h : truth i = true)
    (rest : Walk code truth (i + 1) cs j) : Walk code truth i cs j := by
  refine .step stands ?_
  rw [h]
  exact rest

/-- At an `IF` whose predicate does not hold, a walk goes on at its target. -/
theorem fails (stands : code[i]? = some (.branch column predicate target)) (h : truth i = false)
    (rest : Walk code truth target cs j) : Walk code truth i cs j := by
  refine .step stands ?_
  rw [h]
  exact rest

/-- At an `ELSE`, a walk goes on at its target. -/
theorem skips (stands : code[i]? = some (.skip column target))
    (rest : Walk code truth target cs j) : Walk code truth i cs j :=
  .step stands rest

/-- Walks that meet can be joined, and visit the commands of both. -/
theorem trans (h : Walk code truth i cs j) (h' : Walk code truth j ds k) :
    Walk code truth i (cs ++ ds) k := by
  induction h with
  | here => exact h'
  | step stands _ ih =>
      rw [List.append_assoc]
      exact .step stands (ih h')

/-- Two walks to an offset without a statement are the same. -/
theorem unique (h : Walk code truth i cs j) (beyond : code[j]? = none)
    (h' : Walk code truth i ds k) (beyond' : code[k]? = none) : cs = ds ∧ j = k := by
  induction h generalizing ds with
  | here offset =>
      cases h' with
      | here => exact ⟨rfl, rfl⟩
      | step stands _ =>
          rw [beyond] at stands
          cases stands
  | step stands _ ih =>
      cases h' with
      | here =>
          rw [beyond'] at stands
          cases stands
      | step stands' rest' =>
          rw [stands] at stands'
          obtain rfl := Option.some.inj stands'
          obtain ⟨rfl, rfl⟩ := ih beyond rest'
          exact ⟨rfl, rfl⟩

end Walk

end Statement

namespace Block

/-- The block that starts with some commands. -/
def prepend (commands : List Command) (rest : Block) : Block :=
  commands.foldr .plain rest

/-- The statements of a block that starts at offset `start` of its line. An `IF` whose predicate
does not hold goes on after its first block, and past the `ELSE` if there is one; that `ELSE`,
reached from the first block, goes on after the second one. -/
def flatten (start : Nat) : Block → List Statement
  | .done => []
  | .plain command rest => .run command :: flatten (start + 1) rest
  | .ifThen column predicate yes =>
    let body := flatten (start + 1) yes
    .branch column predicate (start + 1 + body.length) :: body
  | .ifElse column predicate yes elseColumn no =>
    let body := flatten (start + 1) yes
    let otherwise := start + 1 + body.length + 1
    let rest := flatten otherwise no
    .branch column predicate otherwise ::
      body ++ .skip elseColumn (otherwise + rest.length) :: rest

/-- The number of statements a block is laid out as. -/
def size : Block → Nat
  | .done => 0
  | .plain _ rest => rest.size + 1
  | .ifThen _ _ yes => yes.size + 1
  | .ifElse _ _ yes _ no => yes.size + 1 + no.size + 1

/-- The commands that a block visits. The predicates are numbered by the offsets of their `IF`s
when the block starts at offset `start`. -/
def visited (truth : Nat → Bool) (start : Nat) : Block → List Command
  | .done => []
  | .plain command rest => command :: visited truth (start + 1) rest
  | .ifThen _ _ yes => if truth start then visited truth (start + 1) yes else []
  | .ifElse _ _ yes _ no =>
    if truth start then visited truth (start + 1) yes
    else visited truth (start + 1 + yes.size + 1) no

/-- Every `IF` of a block has its `ELSE`. -/
def Closed : Block → Prop
  | .done => True
  | .plain _ rest => rest.Closed
  | .ifThen .. => False
  | .ifElse _ _ yes _ no => yes.Closed ∧ no.Closed

/-- Every `ELSE` belongs to the nearest `IF` before it that has none yet: no `IF` is left open
between an `ELSE` and its own. -/
def ElseNearest : Block → Prop
  | .done => True
  | .plain _ rest => rest.ElseNearest
  | .ifThen _ _ yes => yes.ElseNearest
  | .ifElse _ _ yes _ no => yes.Closed ∧ yes.ElseNearest ∧ no.ElseNearest

/-- The number of statements does not depend on where a block starts. -/
theorem length_flatten (block : Block) (start : Nat) :
    (block.flatten start).length = block.size := by
  induction block generalizing start with
  | done => rfl
  | plain command rest ih => simp [flatten, size, ih]
  | ifThen column predicate yes ih => simp [flatten, size, ih]
  | ifElse column predicate yes elseColumn no yesIh noIh =>
      simp [flatten, size, yesIh, noIh]
      omega

/-- Commands at the front of a block are laid out first. -/
theorem flatten_prepend (commands : List Command) (rest : Block) (start : Nat) :
    (prepend commands rest).flatten start =
      commands.map .run ++ rest.flatten (start + commands.length) := by
  induction commands generalizing start with
  | nil => rfl
  | cons command commands ih =>
      have moved : start + (commands.length + 1) = start + 1 + commands.length := by omega
      show .run command :: (prepend commands rest).flatten (start + 1) = _
      rw [ih, List.length_cons, moved]
      rfl

/-- Commands in front of a block leave none of its branches open. -/
theorem closed_prepend {commands : List Command} {rest : Block} :
    (prepend commands rest).Closed ↔ rest.Closed := by
  induction commands with
  | nil => rfl
  | cons command commands ih => exact ih

/-- Commands in front of a block do not change which `IF` an `ELSE` belongs to. -/
theorem elseNearest_prepend {commands : List Command} {rest : Block} :
    (prepend commands rest).ElseNearest ↔ rest.ElseNearest := by
  induction commands with
  | nil => rfl
  | cons command commands ih => exact ih

/-- The jumps of a block lead forward and not beyond its end. -/
theorem lt_target (block : Block) (start i : Nat) {statement : Statement} {target : Nat}
    (stands : (block.flatten start)[i]? = some statement)
    (jumps : statement.target? = some target) :
    start + i < target ∧ target ≤ start + block.size := by
  induction block generalizing start i with
  | done => cases stands
  | plain command rest ih =>
      cases i with
      | zero =>
          obtain rfl := Option.some.inj stands
          cases jumps
      | succ i =>
          have bounds := ih (start + 1) i stands
          simp only [size]
          omega
  | ifThen column predicate yes ih =>
      cases i with
      | zero =>
          obtain rfl := Option.some.inj stands
          obtain rfl := Option.some.inj jumps
          simp only [size, length_flatten]
          omega
      | succ i =>
          have bounds := ih (start + 1) i stands
          simp only [size]
          omega
  | ifElse column predicate yes elseColumn no yesIh noIh =>
      simp only [size]
      cases i with
      | zero =>
          obtain rfl := Option.some.inj stands
          obtain rfl := Option.some.inj jumps
          simp only [length_flatten]
          omega
      | succ i =>
          simp only [flatten, List.cons_append, List.getElem?_cons_succ, length_flatten] at stands
          -- the statement is in the first block, the `ELSE`, or in the second block
          rcases Nat.lt_trichotomy i yes.size with inYes | atElse | inNo
          · rw [List.getElem?_append_left (by rw [length_flatten]; exact inYes)] at stands
            have bounds := yesIh (start + 1) i stands
            omega
          · rw [List.getElem?_append_right (by rw [length_flatten]; omega), length_flatten, atElse,
              Nat.sub_self] at stands
            obtain rfl := Option.some.inj stands
            obtain rfl := Option.some.inj jumps
            omega
          · obtain ⟨j, rfl⟩ : ∃ j, i = yes.size + (j + 1) := ⟨i - yes.size - 1, by omega⟩
            rw [List.getElem?_append_right (by rw [length_flatten]; omega), length_flatten,
              Nat.add_sub_cancel_left, List.getElem?_cons_succ] at stands
            have bounds := noIh _ j stands
            omega

/-- After a part of a line stands what was laid out next. -/
theorem getElem?_after {code before after : List Statement} {statement : Statement}
    (laid : code = before ++ statement :: after) : code[before.length]? = some statement := by
  rw [laid, List.getElem?_append_right (Nat.le_refl _), Nat.sub_self]
  rfl

/-- Following the statements of a block visits the commands that the block visits, and comes to the
place after the block. -/
theorem walk_flatten (truth : Nat → Bool) (block : Block) (start : Nat)
    {code : List Statement} (before after : List Statement) (placed : before.length = start)
    (laid : code = before ++ (block.flatten start ++ after)) :
    Statement.Walk code truth start (block.visited truth start) (start + block.size) := by
  -- `before` grows along with `start`, so that every part of the block is found at its own place.
  induction block generalizing start before after with
  | done => exact .here _
  | plain command rest ih =>
      have stands : code[start]? = some (.run command) := placed ▸ getElem?_after laid
      have further := ih (start + 1) (before ++ [.run command]) after
        (by simp [placed]) (by simp [laid, flatten])
      have ends : start + (plain command rest).size = start + 1 + rest.size := by
        simp only [size]
        omega
      rw [ends]
      exact .step stands further
  | ifThen column predicate yes ih =>
      let branch : Statement := .branch column predicate (start + 1 + yes.size)
      have laid' : code = before ++ branch :: (yes.flatten (start + 1) ++ after) := by
        simpa [flatten, length_flatten] using laid
      have stands : code[start]? = some branch := placed ▸ getElem?_after laid'
      have ends : start + (ifThen column predicate yes).size = start + 1 + yes.size := by
        simp only [size]
        omega
      rw [ends]
      cases truthHere : truth start with
      | true =>
          have further := ih (start + 1) (before ++ [branch]) after
            (by simp [placed]) (by simp [laid'])
          simpa [visited, truthHere] using further.holds stands truthHere
      | false =>
          have beyond : Statement.Walk code truth (start + 1 + yes.size) [] _ := .here _
          simpa [visited, truthHere] using beyond.fails stands truthHere
  | ifElse column predicate yes elseColumn no yesIh noIh =>
      let otherwise := start + 1 + yes.size + 1
      let branch : Statement := .branch column predicate otherwise
      let skip : Statement := .skip elseColumn (otherwise + no.size)
      have laid' : code = before ++ branch :: (yes.flatten (start + 1) ++
          skip :: (no.flatten otherwise ++ after)) := by
        simpa [flatten, length_flatten] using laid
      have stands : code[start]? = some branch := placed ▸ getElem?_after laid'
      have ends : start + (ifElse column predicate yes elseColumn no).size =
          otherwise + no.size := by
        simp only [size, otherwise]
        omega
      rw [ends]
      cases truthHere : truth start with
      | true =>
          have further := yesIh (start + 1) (before ++ [branch]) _
            (by simp [placed]) (by simp [laid']; rfl)
          have standsSkip : code[start + 1 + yes.size]? = some skip := by
            have length : (before ++ branch :: yes.flatten (start + 1)).length =
                start + 1 + yes.size := by
              simp [placed, length_flatten]
              omega
            rw [← length]
            exact getElem?_after (by simp [laid']; rfl)
          have beyond : Statement.Walk code truth (otherwise + no.size) [] _ := .here _
          have walked := (further.trans (beyond.skips standsSkip)).holds stands truthHere
          simpa [visited, truthHere] using walked
      | false =>
          have further := noIh otherwise (before ++ branch :: (yes.flatten (start + 1) ++ [skip]))
            after (by simp [placed, length_flatten]; omega) (by simp [laid'])
          simpa [visited, truthHere] using further.fails stands truthHere

end Block

end NumberedBasic
