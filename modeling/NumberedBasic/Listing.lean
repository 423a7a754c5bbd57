import NumberedBasic.Line
import Std.Data.TreeMap

/-!
# Listings

A program as text: numbered lines in ascending order. A line that is entered takes the place of an
earlier one with its number, and a number alone removes that line.
-/

set_option autoImplicit false

namespace NumberedBasic

/-- The lines of a program by their numbers. -/
structure Listing where
  lines : Std.TreeMap LineNumber Line

namespace Listing

/-- The listing without lines. -/
def empty : Listing := ⟨{}⟩

/-- The line with a number. -/
def line? (listing : Listing) (n : LineNumber) : Option Line :=
  listing.lines[n]?

/-- The numbered lines in ascending order. -/
def toList (listing : Listing) : List (LineNumber × Line) :=
  listing.lines.toList

/-- The number of lines. -/
def size (listing : Listing) : Nat :=
  listing.lines.size

/-- Enters a line. One without a number changes nothing. -/
def insert (listing : Listing) (line : Line) : Listing :=
  match line.number with
  | none => listing
  | some n =>
    if line.isEmpty then ⟨listing.lines.erase n⟩ else ⟨listing.lines.insert n line⟩

/-- The line that entering `line` replaces or removes. -/
def replaced? (listing : Listing) (line : Line) : Option Line :=
  line.number.bind listing.line?

/-- The greatest number of characters a source line may have. -/
def maxLineLength : Nat := 1024

/-- Why a line without a number is refused: for the number it starts with, if that is why it has
none, and otherwise because it is no line of a program. -/
def unnumberedFault (line : Line) : Fault :=
  let first := line.tokens.find? fun
    | .blank _ => false
    | _ => true
  match first with
  | some (.number s) =>
    match (Token.number s).lineNumber with
    | .error fault => fault
    | .ok _ => { code := .directStatementInFile }
  | some (.string _) => Fault.badSyntax "INVALID LINE NUMBER"
  | _ => { code := .directStatementInFile }

/-- Enters a line of source text. One that is too long or has no number is refused and changes
nothing. -/
def enter (listing : Listing) (text : String) : Except Fault Unit × Listing :=
  if text.length > maxLineLength then (.error (Fault.badSyntax "LINE BUFFER OVERFLOW"), listing)
  else
    let line := Line.ofText text
    match line.number with
    | none => (.error (unnumberedFault line), listing)
    | some _ => (.ok (), listing.insert line)

/-- The fault of a source line with its place in the source, counted from one, if it says nothing
else. -/
def locate (fault : Fault) (index : Nat) : Fault :=
  if fault.line.isNone && fault.detail.isEmpty then
    fault.withDetail ("SOURCE LINE " ++ toString (index + 1))
  else fault

/-- Enters the physical lines of a source, the first of which is line `index`. Blank ones are
passed over. -/
def enterAll (listing : Listing) (index : Nat) : List (List Char) → Except Fault Listing
  | [] => .ok listing
  | text :: rest =>
    if (Text.trim text).isEmpty then enterAll listing (index + 1) rest
    else
      match listing.enter (String.ofList text) with
      | (.ok _, listing) => enterAll listing (index + 1) rest
      | (.error fault, _) => .error (locate fault index)

/-- The listing of a source text. -/
def load (source : String) : Except Fault Listing :=
  empty.enterAll 0 (Text.lines source.toList)

end Listing

end NumberedBasic
