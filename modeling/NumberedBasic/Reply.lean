import NumberedBasic.Text.Blank

/-!
# Replies to INPUT

The fields of a reply. Commas separate them. A field that starts with a quote runs to the next
quote, may hold commas, and drops whatever stands between its closing quote and the next comma.
-/

set_option autoImplicit false

namespace NumberedBasic

/-- A field of a reply. -/
structure ReplyField where
  text : String
  quoted : Bool
  deriving DecidableEq, Repr

namespace ReplyField

/-- Whether two fields are separated by a character. -/
def isSeparator (c : Char) : Bool :=
  c == ','

/-- The blanks that may stand before a field. -/
def isGap (c : Char) : Bool :=
  c == ' ' || c == '\t'

/-- The text of a quoted field, after its opening quote, and what follows the closing one. -/
def takeQuoted (cs : List Char) : List Char × List Char :=
  (cs.takeWhile (· != '"'), (cs.dropWhile (· != '"')).drop 1)

/-- What follows the next separator. -/
def afterSeparator (cs : List Char) : List Char :=
  (cs.dropWhile (!isSeparator ·)).drop 1

/-- Passing a separator does not lengthen what is left of a reply. -/
theorem length_afterSeparator_le (cs : List Char) : (afterSeparator cs).length ≤ cs.length := by
  have h := (List.dropWhile_sublist (l := cs) (!isSeparator ·)).length_le
  simp only [afterSeparator, List.length_drop]
  omega

/-- What is left after a quoted field is no longer than what it was read from. -/
theorem length_takeQuoted_le (cs : List Char) : (takeQuoted cs).2.length ≤ cs.length := by
  have h := (List.dropWhile_sublist (l := cs) (· != '"')).length_le
  simp only [takeQuoted, List.length_drop]
  omega

/-- The first field of a text, and what follows its separator if another field comes after it. A
quoted field at the end of the reply is followed by an empty one exactly if the last character of
the whole reply that is not blank is a separator, which `more` says. -/
def first (more : Bool) (cs : List Char) : ReplyField × Option (List Char) :=
  match cs.dropWhile isGap with
  | '"' :: rest =>
    let (text, after) := takeQuoted rest
    let after := afterSeparator after
    (⟨String.ofList text, true⟩, if after.isEmpty && !more then none else some after)
  | body =>
    let text := Text.trimEnd (body.takeWhile (!isSeparator ·))
    match body.dropWhile (!isSeparator ·) with
    | [] => (⟨String.ofList text, false⟩, none)
    | _ :: after => (⟨String.ofList text, false⟩, some after)

/-- Another field starts further on. -/
theorem length_first_lt {more : Bool} {cs after : List Char} {field : ReplyField}
    (h : first more cs = (field, some after)) : after.length < cs.length := by
  have hcs := (List.dropWhile_sublist (l := cs) isGap).length_le
  unfold first at h
  split at h
  · next rest hrest =>
    rw [hrest, List.length_cons] at hcs
    have h₁ := length_afterSeparator_le (takeQuoted rest).2
    have h₂ := length_takeQuoted_le rest
    simp only [Prod.mk.injEq] at h
    obtain ⟨_, h⟩ := h
    split at h
    · simp at h
    · simp only [Option.some.injEq] at h
      rw [← h]
      omega
  · have hbody := (List.dropWhile_sublist (l := cs.dropWhile isGap) (!isSeparator ·)).length_le
    dsimp only at h
    split at h
    · simp at h
    · next hdrop =>
      rw [hdrop, List.length_cons] at hbody
      simp only [Prod.mk.injEq, Option.some.injEq] at h
      rw [← h.2]
      omega

/-- The fields of a text. -/
def split (more : Bool) (cs : List Char) : List ReplyField :=
  match _h : first more cs with
  | (field, none) => [field]
  | (field, some after) => field :: split more after
termination_by cs.length
decreasing_by exact length_first_lt ‹_›

/-- The fields of a reply. -/
def ofReply (reply : String) : List ReplyField :=
  let cs := reply.toList
  split ((Text.trimEnd cs).getLast?.any isSeparator) cs

end ReplyField

end NumberedBasic
