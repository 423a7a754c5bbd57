import NumberedBasic.BoundedStack

/-!
# Stacks as lists

What the operations of a stack do to its entries, listed from the bottom up, so that an entry stands
at its index in the list.
-/

set_option autoImplicit false

namespace NumberedBasic

namespace BoundedStack

variable {α : Type} {stack grown : BoundedStack α} {entry : α}

/-- A stack has as many entries as it is deep. -/
theorem length_toList (stack : BoundedStack α) : stack.toList.length = stack.depth := by
  rw [toList, List.length_reverse, stack.counted]

/-- An entry goes on top, and only if there is room. -/
theorem of_push_eq_ok (h : stack.push entry = .ok grown) :
    stack.depth < stack.limit ∧ grown.toList = stack.toList ++ [entry] ∧
      grown.overflow = stack.overflow := by
  unfold push at h
  split at h
  · next room =>
      cases h
      exact ⟨room, List.reverse_cons, rfl⟩
  · cases h

/-- Pushing fails exactly where the stack is full, and says that there is no memory left. -/
theorem of_push_eq_error {fault : Fault} (h : stack.push entry = .error fault) :
    stack.depth = stack.limit ∧ fault = { code := .outOfMemory, detail := stack.overflow } := by
  have fits := stack.fits
  unfold push at h
  split at h
  · cases h
  · cases h
    exact ⟨by omega, rfl⟩

/-- A stack without a top has no entries. -/
theorem top?_eq_none (h : stack.top? = none) : stack.toList = [] := by
  unfold top? at h
  unfold toList
  rw [List.head?_eq_none_iff.mp h, List.reverse_nil]

/-- The top is the last of the entries, behind those that popping leaves. -/
theorem toList_of_top? (h : stack.top? = some entry) :
    stack.toList = stack.pop.toList ++ [entry] := by
  obtain ⟨rest, entries⟩ := List.head?_eq_some_iff.mp h
  simp [toList, pop, entries]

/-- The last of the entries is the top. -/
theorem top?_of_toList {below : List α} (whole : stack.toList = below ++ [entry]) :
    stack.top? = some entry := by
  have entries := congrArg List.reverse whole
  rw [toList, List.reverse_reverse, List.reverse_append] at entries
  rw [top?, entries]
  rfl

/-- Popping removes the last entry. -/
theorem toList_pop (stack : BoundedStack α) : stack.pop.toList = stack.toList.dropLast := by
  simp [toList, pop]

/-- Truncating keeps the first entries. -/
theorem toList_truncate (stack : BoundedStack α) (n : Nat) :
    (stack.truncate n).toList = stack.toList.take n := by
  have counted := stack.counted
  simp only [toList, truncate, List.reverse_drop, ← counted]
  by_cases few : n ≤ stack.depth
  · rw [show stack.depth - (stack.depth - n) = n by omega]
  · rw [List.take_of_length_le (by simp; omega), List.take_of_length_le (by simp; omega)]

/-- There is an index for an entry that satisfies a test if none above it does. -/
theorem topmost?_of_split {p : α → Bool} {below above : List α}
    (whole : stack.toList = below ++ entry :: above) (here : p entry = true)
    (topmost : ∀ other ∈ above, p other = false) : stack.topmost? p = some below.length := by
  have entries : stack.entries = above.reverse ++ entry :: below.reverse := by
    rw [← List.reverse_reverse stack.entries, show stack.entries.reverse = _ from whole]
    simp
  have depth : stack.depth = below.length + 1 + above.length := by
    rw [stack.counted, entries]
    simp
    omega
  have found : stack.entries.findIdx? p = some above.length := by
    rw [entries, List.findIdx?_append, List.findIdx?_eq_none_iff.mpr (by simpa using topmost)]
    simp [List.findIdx?_cons, here]
  rw [topmost?, found, Option.map_some, depth]
  congr 1
  omega

end BoundedStack

end NumberedBasic
