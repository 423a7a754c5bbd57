import NumberedBasic.Fault

/-!
# Stacks of bounded depth

A stack that refuses to grow beyond its limit. Entries are counted from the bottom, so an entry
keeps its index for as long as it is on the stack.
-/

set_option autoImplicit false

namespace NumberedBasic

/-- A stack with at most `limit` entries, of which the first is on top. Their number is kept beside
them; `overflow` is the detail of the fault when there is no room. -/
structure BoundedStack (α : Type) where
  limit : Nat
  overflow : String
  entries : List α
  depth : Nat
  counted : depth = entries.length
  fits : depth ≤ limit

namespace BoundedStack

variable {α : Type}

/-- The stack without entries. -/
def empty (limit : Nat) (overflow : String) : BoundedStack α :=
  ⟨limit, overflow, [], 0, rfl, Nat.zero_le limit⟩

/-- The entries from the bottom up. -/
def toList (stack : BoundedStack α) : List α :=
  stack.entries.reverse

/-- The entry on top. -/
def top? (stack : BoundedStack α) : Option α :=
  stack.entries.head?

/-- Puts an entry on top. -/
def push (stack : BoundedStack α) (entry : α) : Except Fault (BoundedStack α) :=
  if h : stack.depth < stack.limit then
    .ok { stack with
      entries := entry :: stack.entries
      depth := stack.depth + 1
      counted := by rw [List.length_cons, stack.counted]
      fits := h }
  else .error { code := .outOfMemory, detail := stack.overflow }

/-- Removes the entry on top, if there is one. -/
def pop (stack : BoundedStack α) : BoundedStack α :=
  { stack with
    entries := stack.entries.tail
    depth := stack.depth - 1
    counted := by rw [List.length_tail, stack.counted]
    fits := Nat.le_trans (Nat.sub_le _ _) stack.fits }

/-- Keeps the lowest `n` entries. -/
def truncate (stack : BoundedStack α) (n : Nat) : BoundedStack α :=
  { stack with
    entries := stack.entries.drop (stack.depth - n)
    depth := min stack.depth n
    counted := by rw [List.length_drop, ← stack.counted]; omega
    fits := Nat.le_trans (Nat.min_le_left _ _) stack.fits }

/-- Removes all entries. -/
def clear (stack : BoundedStack α) : BoundedStack α :=
  empty stack.limit stack.overflow

/-- The index of the topmost entry that satisfies `p`. -/
def topmost? (stack : BoundedStack α) (p : α → Bool) : Option Nat :=
  (stack.entries.findIdx? p).map fun i => stack.depth - 1 - i

end BoundedStack

end NumberedBasic
