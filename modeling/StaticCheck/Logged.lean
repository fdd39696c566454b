import StaticCheck.Record

/-!
# Computations that leave records

A `Logged ε α` is the result of a computation that may fail, with the records it
left. A computation that fails keeps the records up to its failure, and what
would have followed leaves none: `result_bind` and `log_bind` say so. These and the
equations of the single steps are for `simp`, which works out a computation from what
is known of its steps.
-/

namespace StaticCheck

instance decidableEqResult {ε α : Type} [DecidableEq ε] [DecidableEq α] : DecidableEq (Except ε α)
  | .ok a, .ok b => decidable_of_iff (a = b) (by rw [Except.ok.injEq])
  | .error d, .error e => decidable_of_iff (d = e) (by rw [Except.error.injEq])
  | .ok _, .error _ => .isFalse nofun
  | .error _, .ok _ => .isFalse nofun

section Results

variable {ε α β : Type}

@[simp]
theorem pure_eq_ok (a : α) : (pure a : Except ε α) = .ok a := rfl

@[simp]
theorem functor_map_eq (f : α → β) (x : Except ε α) : f <$> x = x.map f := rfl

@[simp]
theorem ok_bind (a : α) (f : α → Except ε β) : (Except.ok a >>= f) = f a := rfl

@[simp]
theorem error_bind (e : ε) (f : α → Except ε β) : ((.error e : Except ε α) >>= f) = .error e := rfl

@[simp]
theorem ok_map (a : α) (f : α → β) : (.ok a : Except ε α).map f = .ok (f a) := rfl

@[simp]
theorem error_map (e : ε) (f : α → β) : (.error e : Except ε α).map f = .error e := rfl

end Results

/-- A result together with the records that were left on the way to it. -/
structure Logged (ε α : Type) where
  result : Except ε α
  log : List Record
  deriving DecidableEq

namespace Logged

variable {ε α β : Type}

/-- Goes on with the value of `x`, if it has one. -/
def bind (x : Logged ε α) (f : α → Logged ε β) : Logged ε β :=
  match x with
  | ⟨.error e, log⟩ => ⟨.error e, log⟩
  | ⟨.ok a, log⟩ =>
    let y := f a
    ⟨y.result, log ++ y.log⟩

instance : Monad (Logged ε) where
  pure a := ⟨.ok a, []⟩
  bind := bind

/-- A computation without records. -/
def ofExcept (x : Except ε α) : Logged ε α :=
  ⟨x, []⟩

instance : MonadLift (Except ε) (Logged ε) := ⟨ofExcept⟩

/-- Leaves one record. -/
def emit (record : Record) : Logged ε Unit :=
  ⟨.ok (), [record]⟩

/-- Ends in failure. -/
def fail (e : ε) : Logged ε α :=
  ⟨.error e, []⟩

/-- Words the failure differently. -/
def mapError {δ : Type} (f : ε → δ) (x : Logged ε α) : Logged δ α :=
  ⟨x.result.mapError f, x.log⟩

@[ext]
theorem ext {x y : Logged ε α} (hresult : x.result = y.result) (hlog : x.log = y.log) : x = y := by
  cases x
  cases y
  cases hresult
  cases hlog
  rfl

@[simp]
theorem result_bind (x : Logged ε α) (f : α → Logged ε β) :
    (x >>= f).result = x.result >>= fun a => (f a).result := by
  obtain ⟨result, log⟩ := x
  cases result <;> rfl

@[simp]
theorem log_bind (x : Logged ε α) (f : α → Logged ε β) :
    (x >>= f).log = x.log ++ match x.result with
      | .ok a => (f a).log
      | .error _ => [] := by
  obtain ⟨result, log⟩ := x
  cases result with
  | ok a => rfl
  | error e => exact (List.append_nil _).symm

@[simp]
theorem result_pure (a : α) : (pure a : Logged ε α).result = .ok a := rfl

@[simp]
theorem log_pure (a : α) : (pure a : Logged ε α).log = [] := rfl

@[simp]
theorem result_map (f : α → β) (x : Logged ε α) : (f <$> x).result = x.result.map f := by
  obtain ⟨result, log⟩ := x
  cases result <;> rfl

@[simp]
theorem result_lift (x : Except ε α) : (liftM x : Logged ε α).result = x := rfl

@[simp]
theorem log_lift (x : Except ε α) : (liftM x : Logged ε α).log = [] := rfl

@[simp]
theorem result_emit (record : Record) : (emit record : Logged ε Unit).result = .ok () := rfl

@[simp]
theorem log_emit (record : Record) : (emit record : Logged ε Unit).log = [record] := rfl

@[simp]
theorem result_fail (e : ε) : (fail e : Logged ε α).result = .error e := rfl

@[simp]
theorem log_fail (e : ε) : (fail e : Logged ε α).log = [] := rfl

instance : LawfulMonad (Logged ε) := LawfulMonad.mk' (Logged ε)
  (by
    intro α x
    obtain ⟨result, log⟩ := x
    cases result with
    | error e => rfl
    | ok a => exact ext rfl (List.append_nil _))
  (by intro α β a f; rfl)
  (by
    intro α β γ x f g
    obtain ⟨result, log⟩ := x
    cases result with
    | error e => rfl
    | ok a =>
      show bind (bind ⟨.ok a, log⟩ f) g = bind ⟨.ok a, log⟩ fun a => bind (f a) g
      simp only [bind]
      obtain ⟨result', log'⟩ := f a
      cases result' with
      | error e => rfl
      | ok b => exact ext rfl (List.append_assoc _ _ _))

end Logged

end StaticCheck
