/-!
# Names

Variables, arrays and functions share one form of name. A name that ends in `$` stands for
strings, every other name for numbers. What is stored is found by the name alone. A name that was
read in a program is handed on as an `Ident`, with a tag that tells what it stands for.
-/

set_option autoImplicit false

namespace NumberedBasic

/-- A name is its spelling. -/
abbrev Name := String

namespace Name

/-- Whether a name stands for strings. -/
def isText (name : Name) : Bool :=
  name.toList.getLast? == some '$'

end Name

/-- A name with its tag: `plain` for numbers, `text` for strings. -/
inductive Ident where
  | plain (name : Name)
  | text (name : Name)
  deriving DecidableEq, Repr

namespace Ident

/-- The name without its tag. -/
def name : Ident → Name
  | .plain name | .text name => name

/-- Whether the tag is that of strings. -/
def isText : Ident → Bool
  | .plain _ => false
  | .text _ => true

/-- A name with the tag that its spelling asks for. -/
def ofName (name : Name) : Ident :=
  if name.isText then .text name else .plain name

end Ident

end NumberedBasic
