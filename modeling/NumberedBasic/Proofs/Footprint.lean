import Mathlib.Order.Defs.Unbundled
import NumberedBasic.Session

/-!
# What an effect leaves alone

A session has sixteen parts. `Session.Only parts s t` says that `t` differs from `s` in the listed
parts at most, and `Effect.Ensures` is the form in which all that is known of an effect is stated:

* that it keeps an invariant of the sessions it is started in;
* how the session it leaves is related to that one, by a reflexive and transitive relation such as
  `Only parts`;
* what its value satisfies, and what holds if it fails.

There is one set of rules for the ways effects are put together (`Ensures.bind`, `Ensures.get`,
`Ensures.modify`, ...). The notions that later modules speak of are special cases of `Ensures` and
share these rules; the first one is `Effect.Obeys`, which asks that faults are ordinary ones.
-/

set_option autoImplicit false

namespace NumberedBasic

namespace Code

/-- Whether a fault with this code can come of running a program that has been read: those of the
reader and of the interpreter itself cannot. -/
def isOrdinary (code : Code) : Bool :=
  match code.kind with
  | .internal | .lexical | .syntactic => false
  | _ => true

end Code

/-- A fault that is the program's own, and in which no line and no columns have been noted yet. -/
def Fault.Ordinary (fault : Fault) : Prop :=
  (fault.code.isOrdinary && fault.line.isNone && fault.column == Span.none) = true

namespace Session

/-- The parts of a session. -/
inductive Part where
  | program
  | config
  | clock
  | place
  | memory
  | functions
  | callDepth
  | returns
  | loops
  | dice
  | nextDatum
  | column
  | output
  | reply
  | interrupted
  | outcome
  deriving DecidableEq

/-- Two sessions agree in a part. -/
@[simp]
def Part.Same (s t : Session) : Part → Prop
  | .program => t.program = s.program
  | .config => t.config = s.config
  | .clock => t.clock = s.clock
  | .place => t.place = s.place
  | .memory => t.memory = s.memory
  | .functions => t.functions = s.functions
  | .callDepth => t.callDepth = s.callDepth
  | .returns => t.returns = s.returns
  | .loops => t.loops = s.loops
  | .dice => t.dice = s.dice
  | .nextDatum => t.nextDatum = s.nextDatum
  | .column => t.column = s.column
  | .output => t.output = s.output
  | .reply => t.reply = s.reply
  | .interrupted => t.interrupted = s.interrupted
  | .outcome => t.outcome = s.outcome

/-- A session differs from another one in some parts at most. -/
def Only (parts : List Part) (s t : Session) : Prop :=
  ∀ part, part ∉ parts → part.Same s t

/-- Nothing is said of how a session differs from another one. -/
def Anyhow (_ _ : Session) : Prop :=
  True

instance : IsPreorder Session Anyhow where
  refl _ := trivial
  trans _ _ _ _ _ := trivial

namespace Part.Same

/-- A session agrees with itself in every part. -/
theorem refl (s : Session) (part : Part) : part.Same s s := by
  cases part <;> rfl

/-- Agreeing in a part carries over from one session to the next. -/
theorem trans {s t u : Session} {part : Part} (h : part.Same s t) (h' : part.Same t u) :
    part.Same s u := by
  cases part <;> exact Eq.trans h' h

end Part.Same

instance (parts : List Part) : IsPreorder Session (Only parts) where
  refl s part _ := Part.Same.refl s part
  trans _ _ _ h h' part outside := (h part outside).trans (h' part outside)

namespace Only

variable {parts more : List Part} {s t : Session}

/-- A session that differs in some parts at most differs in more parts at most. -/
theorem mono (h : Only parts s t) (sub : parts ⊆ more) : Only more s t :=
  fun part outside => h part fun inside => outside (sub inside)

end Only

end Session

namespace Effect

variable {α β : Type}

/-- An effect that yields a value goes on with the next one. -/
theorem bind_of_ok {x : Effect α} {f : α → Effect β} {s t : Session} {a : α}
    (h : x s = (.ok a, t)) : (x >>= f) s = f a t := by
  simp only [Bind.bind, h]

/-- An effect that fails ends there. -/
theorem bind_of_error {x : Effect α} {f : α → Effect β} {s t : Session} {fault : Fault}
    (h : x s = (.error fault, t)) : (x >>= f) s = (.error fault, t) := by
  simp only [Bind.bind, h]

/-- Effects that go on alike after the same beginning are the same. -/
theorem bind_congr {x x' : Effect α} {f f' : α → Effect β} {s : Session} (same : x s = x' s)
    (next : ∀ a t, x' s = (.ok a, t) → f a t = f' a t) : (x >>= f) s = (x' >>= f') s := by
  rcases done : x' s with ⟨result, t⟩
  rw [done] at same
  cases result with
  | error fault => rw [bind_of_error same, bind_of_error done]
  | ok a =>
      rw [bind_of_ok same, bind_of_ok done]
      exact next a t done

/-- Two effects yield a value one after the other only if the first one does. -/
theorem exists_of_bind {x : Effect α} {f : α → Effect β} {s t : Session} {b : β}
    (h : (x >>= f) s = (.ok b, t)) : ∃ a u, x s = (.ok a, u) ∧ f a u = (.ok b, t) := by
  rcases run : x s with ⟨result, u⟩
  cases result with
  | error fault =>
      rw [bind_of_error run] at h
      cases h
  | ok a =>
      rw [bind_of_ok run] at h
      exact ⟨a, u, rfl, h⟩

/-- Two effects fail one after the other if the first one does, or else the second one. -/
theorem error_of_bind {x : Effect α} {f : α → Effect β} {s t : Session} {fault : Fault}
    (h : (x >>= f) s = (.error fault, t)) :
    x s = (.error fault, t) ∨ ∃ a u, x s = (.ok a, u) ∧ f a u = (.error fault, t) := by
  rcases run : x s with ⟨result, u⟩
  cases result with
  | error other =>
      rw [bind_of_error run] at h
      cases h
      exact .inl rfl
  | ok a =>
      rw [bind_of_ok run] at h
      exact .inr ⟨a, u, rfl, h⟩

/-- It does not matter how three effects in a row are grouped. -/
theorem bind_assoc {γ : Type} (x : Effect α) (f : α → Effect β) (g : β → Effect γ) :
    (x >>= f) >>= g = x >>= fun a => f a >>= g := by
  funext s
  rcases run : x s with ⟨result, t⟩
  cases result with
  | error fault => rw [bind_of_error run, bind_of_error (bind_of_error run)]
  | ok a =>
    rw [bind_of_ok run]
    simp only [Bind.bind, run]

/-! ## Results -/

/-- A result that is a value with a property, or else a fault with one. -/
def Settles (F : Fault → Prop) (P : α → Prop) : Except Fault α → Prop
  | .ok a => P a
  | .error fault => F fault

namespace Settles

variable {F F' : Fault → Prop} {P P' : α → Prop} {Q : β → Prop} {x : Except Fault α}
  {f : α → Except Fault β}

/-- A weaker property of the value. -/
theorem imp (h : Settles F P x) (post : ∀ a, P a → P' a) : Settles F P' x := by
  cases x with
  | ok a => exact post a h
  | error fault => exact h

/-- A weaker property of the fault. -/
theorem mono (h : Settles F P x) (wider : ∀ fault, F fault → F' fault) : Settles F' P x := by
  cases x with
  | ok a => exact h
  | error fault => exact wider fault h

/-- One computation after another. -/
theorem bind (hx : Settles F P x) (hf : ∀ a, P a → Settles F Q (f a)) : Settles F Q (x >>= f) := by
  cases x with
  | ok a => exact hf a hx
  | error fault => exact hx

end Settles

/-! ## What effects ensure -/

/-- What is known of an effect. In a session with the invariant `I` it yields a value with `P` and
leaves a session that has `I` too and is related to the first one by `R`, or it fails and then the
two sessions and the fault are related by `E`. -/
def Ensures (I : Session → Prop) (R : Session → Session → Prop)
    (E : Session → Fault → Session → Prop) (P : α → Prop) (x : Effect α) : Prop :=
  ∀ s, I s → (∀ a t, x s = (.ok a, t) → I t ∧ R s t ∧ P a) ∧
    ∀ fault t, x s = (.error fault, t) → E s fault t

/-- A relation for failures that does not see what was done before, as far as that was within
`R`. -/
class Absorbs (R : Session → Session → Prop) (E : Session → Fault → Session → Prop) : Prop where
  absorb : ∀ {s t u fault}, R s t → E t fault u → E s fault u

/-- What holds of a value's session holds of a failure's as well, and the fault has a property. -/
def Failing (I : Session → Prop) (R : Session → Session → Prop) (F : Fault → Prop) (s : Session)
    (fault : Fault) (t : Session) : Prop :=
  I t ∧ R s t ∧ F fault

instance {I : Session → Prop} {R : Session → Session → Prop} [IsPreorder Session R]
    {F : Fault → Prop} : Absorbs R (Failing I R F) where
  absorb first := fun ⟨kept, next, allowed⟩ => ⟨kept, IsTrans.trans _ _ _ first next, allowed⟩

namespace Ensures

variable {I : Session → Prop} {R : Session → Session → Prop} {F : Fault → Prop}
  {E : Session → Fault → Session → Prop} {P P' : α → Prop} {Q : β → Prop} {x : Effect α}
  {f : α → Effect β} {s : Session}

/-- A weaker property of the value. -/
theorem imp (h : Ensures I R E P x) (post : ∀ a, P a → P' a) : Ensures I R E P' x := by
  intro s hs
  refine ⟨fun a t done => ?_, (h s hs).2⟩
  obtain ⟨kept, moved, has⟩ := (h s hs).1 a t done
  exact ⟨kept, moved, post a has⟩

/-- An effect that does not fail. -/
theorem of_ok {value : Session → α} {g : Session → Session} (runs : ∀ s, x s = (.ok (value s), g s))
    (h : ∀ s, I s → I (g s) ∧ R s (g s) ∧ P (value s)) : Ensures I R E P x := by
  intro s hs
  constructor
  · intro a t done
    rw [runs] at done
    cases done
    exact h s hs
  · intro fault t failed
    rw [runs] at failed
    cases failed

/-- An effect that leaves a session like the one it was started in, whether it fails or not. -/
theorem of_outcome (h : ∀ s, I s → I (x s).2 ∧ R s (x s).2 ∧ Settles F P (x s).1) :
    Ensures I R (Failing I R F) P x := by
  intro s hs
  have outcome := h s hs
  constructor
  · intro a t done
    rw [done] at outcome
    exact outcome
  · intro fault t failed
    rw [failed] at outcome
    exact outcome

/-- What such an effect does in a session. -/
theorem outcome (h : Ensures I R (Failing I R F) P x) (hs : I s) :
    I (x s).2 ∧ R s (x s).2 ∧ Settles F P (x s).1 := by
  rcases run : x s with ⟨result, t⟩
  cases result with
  | ok a => exact (h s hs).1 a t run
  | error fault => exact (h s hs).2 fault t run

/-- A relation that holds between more sessions. -/
theorem loosen {R' : Session → Session → Prop} (h : Ensures I R (Failing I R F) P x)
    (wider : ∀ s t, R s t → R' s t) : Ensures I R' (Failing I R' F) P x := by
  refine of_outcome fun s hs => ?_
  obtain ⟨kept, moved, settled⟩ := h.outcome hs
  exact ⟨kept, wider s _ moved, settled⟩

/-- A change of the session that keeps the invariant. -/
theorem modify {g : Session → Session} (h : ∀ s, I s → I (g s) ∧ R s (g s)) :
    Ensures I R E (fun _ => True) (modify g) :=
  of_ok (fun _ => rfl) fun s hs => ⟨(h s hs).1, (h s hs).2, trivial⟩

/-- A choice between two effects. -/
theorem ite {c : Prop} [Decidable c] {y : Effect α} (hx : c → Ensures I R E P x)
    (hy : ¬c → Ensures I R E P y) : Ensures I R E P (if c then x else y) := by
  by_cases h : c
  · rw [if_pos h]
    exact hx h
  · rw [if_neg h]
    exact hy h

/-- How an effect goes is a value whether it fails or not. -/
theorem attempt (hx : Ensures I R (Failing I R F) P x) :
    Ensures I R E (Settles F P) (attempt x) :=
  of_ok (fun _ => rfl) fun _ hs => hx.outcome hs

section Rules

variable [IsPreorder Session R]

/-- A value that does not depend on the session. -/
theorem pure {a : α} (h : P a) : Ensures I R E P (Pure.pure a) :=
  of_ok (fun _ => rfl) fun s hs => ⟨hs, Std.Refl.refl s, h⟩

/-- What is looked up in a session has what its invariant says of it. -/
theorem get {look : Session → α} (h : ∀ s, I s → P (look s)) : Ensures I R E P (get look) :=
  of_ok (fun _ => rfl) fun s hs => ⟨hs, Std.Refl.refl s, h s hs⟩

/-- Something is looked up of which nothing is asked. -/
theorem look (look : Session → α) : Ensures I R E (fun _ => True) (Effect.get look) :=
  get fun _ _ => trivial

/-- A result that does not depend on the session. -/
theorem ofExcept {result : Except Fault α} (h : Settles F P result) :
    Ensures I R (Failing I R F) P (ofExcept result) :=
  of_outcome fun s hs => ⟨hs, Std.Refl.refl s, h⟩

/-- A fault that does not depend on the session. -/
theorem fail {fault : Fault} (h : F fault) : Ensures I R (Failing I R F) P (fail fault) :=
  of_outcome fun s hs => ⟨hs, Std.Refl.refl s, h⟩

/-- One effect after another. The second one is given a value with the property of the first. -/
theorem bind [Absorbs R E] (hx : Ensures I R E P x) (hf : ∀ a, P a → Ensures I R E Q (f a)) :
    Ensures I R E Q (x >>= f) := by
  intro s hs
  constructor
  · intro b u done
    obtain ⟨a, t, first, next⟩ := exists_of_bind done
    obtain ⟨kept, moved, has⟩ := (hx s hs).1 a t first
    obtain ⟨kept', moved', has'⟩ := (hf a has t kept).1 b u next
    exact ⟨kept', IsTrans.trans _ _ _ moved moved', has'⟩
  · intro fault u failed
    rcases error_of_bind failed with first | ⟨a, t, first, next⟩
    · exact (hx s hs).2 fault u first
    · obtain ⟨kept, moved, has⟩ := (hx s hs).1 a t first
      exact Absorbs.absorb moved ((hf a has t kept).2 fault u next)

/-- One effect after another that does not need its value. -/
theorem seq [Absorbs R E] {y : Effect β} (hx : Ensures I R E P x) (hy : Ensures I R E Q y) :
    Ensures I R E Q (x >>= fun _ => y) :=
  hx.bind fun _ _ => hy

end Rules

/-- An effect that changes some parts at most changes more parts at most. -/
theorem widen {parts more : List Session.Part}
    (h : Ensures I (Session.Only parts) (Failing I (Session.Only parts) F) P x)
    (sub : parts ⊆ more) :
    Ensures I (Session.Only more) (Failing I (Session.Only more) F) P x :=
  h.loosen fun _ _ only => only.mono sub

end Ensures

/-- What is known of an effect that fails with ordinary faults only. -/
abbrev Obeys (I : Session → Prop) (R : Session → Session → Prop) (P : α → Prop) (x : Effect α) :
    Prop :=
  Ensures I R (Failing I R Fault.Ordinary) P x

end Effect

end NumberedBasic
