import StaticCheck.Logged
import StaticCheck.Registry

/-!
# Edits of a registry

An `Edit α` is a computation on a registry that may fail, may change the registry
and leaves records. What it changed before a failure stays changed, so the
registry is part of the outcome either way; `run_bind` spells this out.

The single edits are those that a checker of programs makes: it declares globals
and signatures, and collects the local names of a routine.
-/

namespace StaticCheck

/-- A computation on a registry, which it hands on whether or not it fails. -/
def Edit (α : Type) : Type :=
  Registry → Logged Violation α × Registry

namespace Edit

variable {α β : Type}

/-- What the edit makes of the registry `r`. -/
def run (x : Edit α) (r : Registry) : Logged Violation α × Registry :=
  x r

/-- Goes on with the value of `x`, if it has one, in the registry that `x` leaves. -/
def bind (x : Edit α) (f : α → Edit β) : Edit β := fun r =>
  match x r with
  | (⟨.error e, log⟩, r₁) => (⟨.error e, log⟩, r₁)
  | (⟨.ok a, log⟩, r₁) =>
    match f a r₁ with
    | (⟨result, log₁⟩, r₂) => (⟨result, log ++ log₁⟩, r₂)

instance : Monad Edit where
  pure a := fun r => (pure a, r)
  bind := bind

/-- A computation that reads the registry and does not change it. -/
def read (f : Registry → Logged Violation α) : Edit α := fun r =>
  (f r, r)

/-- Changes the registry without failure or record. -/
def change (f : Registry → Registry) : Edit Unit := fun r =>
  (pure (), f r)

/-- Changes the registry to what `f` makes of it and leaves `done`; a refusal by `f` leaves
neither a change nor a record. -/
def attempt (f : Registry → Except Violation Registry) (done : Record) : Edit Unit := fun r =>
  match f r with
  | .ok r₁ => (.emit done, r₁)
  | .error e => (.fail e, r)

@[simp]
theorem run_pure (a : α) (r : Registry) : (pure a : Edit α).run r = (pure a, r) := rfl

theorem run_bind (x : Edit α) (f : α → Edit β) (r : Registry) :
    (x >>= f).run r = match x.run r with
      | (⟨.error e, log⟩, r₁) => (⟨.error e, log⟩, r₁)
      | (⟨.ok a, log⟩, r₁) =>
        match (f a).run r₁ with
        | (⟨result, log₁⟩, r₂) => (⟨result, log ++ log₁⟩, r₂) := rfl

@[simp]
theorem run_read (f : Registry → Logged Violation α) (r : Registry) :
    (read f).run r = (f r, r) := rfl

@[simp]
theorem run_change (f : Registry → Registry) (r : Registry) :
    (change f).run r = (pure (), f r) := rfl

theorem run_attempt (f : Registry → Except Violation Registry) (done : Record) (r : Registry) :
    (attempt f done).run r = match f r with
      | .ok r₁ => (.emit done, r₁)
      | .error e => (.fail e, r) := rfl

instance : LawfulMonad Edit := LawfulMonad.mk' Edit
  (by
    intro α x
    funext r
    show bind x _ r = x r
    unfold bind
    obtain ⟨⟨result, log⟩, r₁⟩ := x r
    cases result with
    | error e => rfl
    | ok a => exact congrArg (·, r₁) (Logged.ext rfl (List.append_nil _)))
  (by
    intro α β a f
    funext r
    rfl)
  (by
    intro α β γ x f g
    funext r
    show bind (bind x f) g r = bind x (fun a => bind (f a) g) r
    simp only [bind]
    obtain ⟨⟨result, log⟩, r₁⟩ := x r
    cases result with
    | error e => rfl
    | ok a =>
      dsimp only
      obtain ⟨⟨result₁, log₁⟩, r₂⟩ := f a r₁
      cases result₁ with
      | error e => rfl
      | ok b =>
        dsimp only
        obtain ⟨⟨result₂, log₂⟩, r₃⟩ := g b r₂
        exact congrArg (·, r₃) (Logged.ext rfl (List.append_assoc _ _ _)))

end Edit

namespace Registry

/-- The local names of a routine, recorded when they are complete. -/
def collectLocals (r : Registry) (h : Header) : Logged Violation LocalTable := do
  let table ← r.localsOf h
  .emit (.symbols h.kind h.name table)
  return table

end Registry

namespace Edit

/-- Declares one global variable. -/
def declareGlobal (d : Declaration) : Edit Unit :=
  attempt (·.declareGlobal d) (.declaringGlobal d.name d.ty)

/-- Declares one signature. -/
def declareSignature (s : Signature) : Edit Unit :=
  attempt (·.declareRoutine s) (.declaringSignature s.name s.returnTy)

/-- Declares globals one after the other; those before a refused one stay. -/
def collectGlobals (declarations : List Declaration) : Edit Unit := do
  declarations.forM declareGlobal
  read fun r => .emit (.globals r.globals)

/-- Declares the signatures of routines one after the other. -/
def collectSignatures (routines : List Routine) : Edit Unit := do
  routines.forM fun routine => declareSignature routine.signature
  read fun r => .emit (.signatures r.signatures.keys)

/-- The local names of a routine. -/
def collectLocals (h : Header) : Edit LocalTable :=
  read (·.collectLocals h)

/-- Declares the signature of a routine and then collects its local names. A refused local name
leaves the signature declared. -/
def collectSignatureAndLocals (h : Header) : Edit LocalTable := do
  declareSignature h.signature
  collectLocals h

/-- Stores the local names of `owner`. -/
def insertLocals (owner : String) (table : LocalTable) : Edit Unit :=
  change (·.insertLocals owner table)

end Edit

end StaticCheck
