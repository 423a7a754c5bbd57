/-!
# Ranges of characters

Properties of characters are given by the ranges of code points that have them.
-/

set_option autoImplicit false

namespace NumberedBasic.Text

/-- Whether a character lies in one of the ranges, whose ends belong to them. -/
def within (ranges : List (Nat × Nat)) (c : Char) : Bool :=
  ranges.any fun (first, last) => first ≤ c.toNat && c.toNat ≤ last

end NumberedBasic.Text
