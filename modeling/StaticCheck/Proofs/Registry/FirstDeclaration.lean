import StaticCheck.Proofs.Analysis.Listing
import StaticCheck.Registry.Edit

/-!
# The first declaration of a name counts

Globals and routines are declared by several operations (`Operation`), which may be run in any order
and may fail. Each of them makes attempts to declare single names, up to the first one that is
refused. The built-in routines count as attempts before all others.

A registry answers by the first attempt for each name (`Registry.Holds`), and an attempt is refused
if and only if an earlier one had its name (`Attempt.refusal?`). A single attempt preserves this
(`Holds.attempted`), and so do the attempts of an operation (`Holds.tries`) and a run of operations
(`Holds.afterAll`). What an operation does besides its attempts leaves globals and signatures as
they are: `Operation.edit_eq`, `Operation.rest_keeps`.

`Registry.firstDeclarationsCount` puts together what this means for a run from the initial registry.
-/

namespace StaticCheck

/-- A single attempt to declare a name. -/
inductive Attempt where
  | global (declaration : Declaration)
  | routine (signature : Signature)
  deriving DecidableEq

namespace Attempt

/-- The name that is to be declared. -/
def name : Attempt → String
  | global d => d.name
  | routine s => s.name

/-- The edit that makes the attempt. -/
def edit : Attempt → Edit Unit
  | global d => .declareGlobal d
  | routine s => .declareSignature s

/-- Why the attempt is refused if the name belongs to `first`. -/
def refusedFor : Attempt → (first : Attempt) → Violation
  | global d, _ => .duplicateGlobal d.name
  | routine s, global _ => .routineTakesGlobal s.name
  | routine s, routine _ => .duplicateRoutine s.name

/-- The attempt that a name belongs to: the first one for it. -/
def first? (attempts : List Attempt) (name : String) : Option Attempt :=
  attempts.find? fun a => decide (a.name = name)

/-- Why the attempt is refused behind the earlier ones, if it is. -/
def refusal? (a : Attempt) (earlier : List Attempt) : Option Violation :=
  (first? earlier a.name).map a.refusedFor

/-- The built-in routines, which are declared before everything else. -/
def ofBuiltins : List Attempt :=
  builtins.map routine

end Attempt

/-- An attempt that was made, with the reason why it was refused if it was. -/
structure Trial where
  attempt : Attempt
  refusal? : Option Violation
  deriving DecidableEq

/-- The trials of attempts that are answered by the earlier ones. -/
def Trial.judged (earlier : List Attempt) : List Attempt → List Trial
  | [] => []
  | a :: as => ⟨a, a.refusal? earlier⟩ :: judged (earlier ++ [a]) as

/-- An operation that may declare names. -/
inductive Operation where
  | declareGlobal (declaration : Declaration)
  | declareRoutine (signature : Signature)
  | collectGlobals (declarations : List Declaration)
  | declareSignature (header : Header)
  | collectSignatureAndLocals (header : Header)
  | insertLocals (owner : String) (table : LocalTable)

namespace Operation

/-- What the operation does to a registry; the local names that it may answer are left out. -/
def edit : Operation → Edit Unit
  | declareGlobal d => .declareGlobal d
  | declareRoutine s => .declareSignature s
  | collectGlobals ds => .collectGlobals ds
  | declareSignature h => .declareSignature h.signature
  | collectSignatureAndLocals h => do
    let _ ← .collectSignatureAndLocals h
  | insertLocals owner table => .insertLocals owner table

/-- The attempts that the operation makes if none of them is refused. -/
def attempts : Operation → List Attempt
  | declareGlobal d => [.global d]
  | declareRoutine s => [.routine s]
  | collectGlobals ds => ds.map .global
  | declareSignature h => [.routine h.signature]
  | collectSignatureAndLocals h => [.routine h.signature]
  | insertLocals _ _ => []

/-- What the operation does behind its attempts. -/
def rest : Operation → Edit Unit
  | collectGlobals _ => .read fun r => .emit (.globals r.globals)
  | collectSignatureAndLocals h => do
    let _ ← .collectLocals h
  | insertLocals owner table => .insertLocals owner table
  | _ => pure ()

end Operation

namespace Registry

/-- Makes attempts one after the other, up to the first refusal. -/
def tries (r : Registry) : List Attempt → List Trial × Registry
  | [] => ([], r)
  | a :: as =>
    let r₁ := (a.edit.run r).2
    match (a.edit.run r).1.result with
    | .error e => ([⟨a, some e⟩], r₁)
    | .ok _ => (⟨a, none⟩ :: (tries r₁ as).1, (tries r₁ as).2)

/-- The registry behind an operation, whether or not it fails. -/
def after (r : Registry) (op : Operation) : Registry :=
  (op.edit.run r).2

/-- The registry behind a run of operations. -/
def afterAll (r : Registry) (ops : List Operation) : Registry :=
  ops.foldl after r

/-- The attempts that a run of operations makes. -/
def trials (r : Registry) : List Operation → List Trial
  | [] => []
  | op :: ops => (r.tries op.attempts).1 ++ (r.after op).trials ops

/-- The registry knows the names of the attempts, each by the first attempt for it. -/
structure Holds (r : Registry) (attempts : List Attempt) : Prop where
  globals : ∀ name ty, r.global? name = some ty ↔
    Attempt.first? attempts name = some (.global ⟨name, ty⟩)
  signatures : ∀ name s, r.signature? name = some s ↔
    Attempt.first? attempts name = some (.routine s)

end Registry

/-! ## The first attempt for a name -/

theorem Trial.judged_append (as bs : List Attempt) :
    ∀ earlier : List Attempt,
      judged earlier (as ++ bs) = judged earlier as ++ judged (earlier ++ as) bs := by
  induction as with
  | nil => simp [judged]
  | cons a as ih => simp [judged, ih]

/-- Each of the trials is answered by the attempts before it. -/
theorem Trial.refusal?_of_judged {t : Trial} {behind before : List Trial} :
    ∀ {earlier : List Attempt},
      before ++ t :: behind = judged earlier ((before ++ t :: behind).map attempt) →
        t.refusal? = t.attempt.refusal? (earlier ++ before.map attempt) := by
  induction before with
  | nil =>
    intro earlier h
    have hhead : t = ⟨t.attempt, t.attempt.refusal? earlier⟩ := (List.cons.inj h).1
    simpa using congrArg Trial.refusal? hhead
  | cons u before ih =>
    intro earlier h
    simpa using ih (List.cons.inj h).2

namespace Attempt

variable {earlier : List Attempt} {a : Attempt} {name : String}

theorem name_of_first? (h : first? earlier name = some a) : a.name = name := by
  unfold first? at h
  have hname := List.find?_some h
  exact of_decide_eq_true hname

@[simp]
theorem first?_append (xs ys : List Attempt) (name : String) :
    first? (xs ++ ys) name = (first? xs name).or (first? ys name) :=
  List.find?_append

/-- Where no attempt has the name of the last one, the last one is the first for it. -/
theorem first?_concat_of_new (h : first? earlier a.name = none) (name : String) :
    first? (earlier ++ [a]) name = if name = a.name then some a else first? earlier name := by
  have hlast : first? [a] name = if name = a.name then some a else none := by
    by_cases hname : name = a.name
    · simp [first?, hname]
    · simp [first?, hname, Ne.symm hname]
  by_cases hname : name = a.name
  · subst hname
    simp [hlast, h]
  · simp [hlast, hname]

/-- A name keeps the attempt that it belongs to. -/
theorem first?_append_of_some {first : Attempt} (h : first? earlier name = some first)
    (later : List Attempt) : first? (earlier ++ later) name = some first := by
  simp [h]

theorem first?_ne_none (h : a ∈ earlier) : first? earlier a.name ≠ none := by
  intro hnone
  exact List.find?_eq_none.mp hnone a h (decide_eq_true rfl)

/-- An attempt for a name that belongs to an earlier one changes nothing. -/
theorem first?_concat_of_known {first : Attempt} (h : first? earlier a.name = some first)
    (name : String) : first? (earlier ++ [a]) name = first? earlier name := by
  cases hname : first? earlier name with
  | some found => exact first?_append_of_some hname [a]
  | none =>
    have hne : a.name ≠ name := by
      intro heq
      rw [heq, hname] at h
      cases h
    have hlast : first? [a] name = none := by simp [first?, hne]
    simp [hname, hlast]

end Attempt

/-! ## One attempt -/

namespace Registry

variable {r : Registry} {earlier : List Attempt} {a first : Attempt} {name : String}

theorem Holds.contains_globals_iff (h : r.Holds earlier) :
    r.globals.contains name = true ↔ ∃ d, Attempt.first? earlier name = some (.global d) := by
  rw [Table.contains_eq_true_iff]
  constructor
  · intro hty
    obtain ⟨ty, hty⟩ := hty
    exact ⟨⟨name, ty⟩, (h.globals name ty).mp hty⟩
  · intro hfirst
    obtain ⟨d, hfirst⟩ := hfirst
    have hname : d.name = name := Attempt.name_of_first? hfirst
    exact ⟨d.ty, (h.globals name d.ty).mpr (hname ▸ hfirst)⟩

theorem Holds.contains_signatures_iff (h : r.Holds earlier) :
    r.signatures.contains name = true ↔ ∃ s, Attempt.first? earlier name = some (.routine s) := by
  rw [Table.contains_eq_true_iff]
  exact exists_congr fun s => h.signatures name s

/-- A name that no attempt has is in neither table. -/
theorem Holds.contains_eq_false (h : r.Holds earlier) (hnew : Attempt.first? earlier name = none) :
    r.globals.contains name = false ∧ r.signatures.contains name = false := by
  constructor
  · rw [← Bool.not_eq_true, h.contains_globals_iff, hnew]
    exact fun hd => nomatch hd
  · rw [← Bool.not_eq_true, h.contains_signatures_iff, hnew]
    exact fun hs => nomatch hs

theorem Holds.insert_global {d : Declaration} (h : r.Holds earlier)
    (hnew : Attempt.first? earlier d.name = none) :
    { r with globals := r.globals.insert d.name d.ty : Registry }.Holds
      (earlier ++ [.global d]) := by
  obtain ⟨own, ownTy⟩ := d
  have hfirst := Attempt.first?_concat_of_new (a := .global ⟨own, ownTy⟩) hnew
  constructor
  · intro name ty
    rw [hfirst]
    by_cases hname : name = own
    · simp [global?, Attempt.name, hname]
    · simpa [global?, Attempt.name, hname] using h.globals name ty
  · intro name s
    rw [hfirst]
    by_cases hname : name = own
    · subst hname
      have hnone : Attempt.first? earlier name = none := hnew
      simpa [signature?, Attempt.name, hnone] using h.signatures name s
    · simpa [signature?, Attempt.name, hname] using h.signatures name s

theorem Holds.insert_signature {s : Signature} (h : r.Holds earlier)
    (hnew : Attempt.first? earlier s.name = none) :
    { r with signatures := r.signatures.insert s.name s : Registry }.Holds
      (earlier ++ [.routine s]) := by
  have hfirst := Attempt.first?_concat_of_new (a := .routine s) hnew
  constructor
  · intro name ty
    rw [hfirst]
    by_cases hname : name = s.name
    · subst hname
      simpa [global?, Attempt.name, hnew] using h.globals s.name ty
    · simpa [global?, Attempt.name, hname] using h.globals name ty
  · intro name t
    rw [hfirst]
    by_cases hname : name = s.name
    · simp [signature?, Attempt.name, hname]
    · simpa [signature?, Attempt.name, hname] using h.signatures name t

/-- An attempt for a new name succeeds, and the name belongs to it from there on. -/
theorem Holds.run_edit_of_new (h : r.Holds earlier) (hnew : Attempt.first? earlier a.name = none) :
    (a.edit.run r).1.result = .ok () ∧ (a.edit.run r).2.Holds (earlier ++ [a]) := by
  cases a with
  | global d =>
    have hfree : r.globals.contains d.name = false ∧ r.signatures.contains d.name = false :=
      h.contains_eq_false hnew
    have hdeclare : r.declareGlobal d = .ok { r with globals := r.globals.insert d.name d.ty } := by
      simp [declareGlobal, hfree]
    have hrun : (Attempt.global d).edit.run r = (.emit (.declaringGlobal d.name d.ty),
        { r with globals := r.globals.insert d.name d.ty }) := by
      unfold Attempt.edit Edit.declareGlobal
      rw [Edit.run_attempt, hdeclare]
    rw [hrun]
    exact ⟨rfl, h.insert_global hnew⟩
  | routine s =>
    have hfree : r.globals.contains s.name = false ∧ r.signatures.contains s.name = false :=
      h.contains_eq_false hnew
    have hdeclare : r.declareRoutine s =
        .ok { r with signatures := r.signatures.insert s.name s } := by
      simp [declareRoutine, hfree]
    have hrun : (Attempt.routine s).edit.run r = (.emit (.declaringSignature s.name s.returnTy),
        { r with signatures := r.signatures.insert s.name s }) := by
      unfold Attempt.edit Edit.declareSignature
      rw [Edit.run_attempt, hdeclare]
    rw [hrun]
    exact ⟨rfl, h.insert_signature hnew⟩

/-- An attempt for a name that belongs to another one is refused and changes nothing. -/
theorem Holds.run_edit_of_known (h : r.Holds earlier)
    (hfirst : Attempt.first? earlier a.name = some first) :
    a.edit.run r = (.fail (a.refusedFor first), r) := by
  cases a with
  | global d =>
    have htaken : (r.globals.contains d.name || r.signatures.contains d.name) = true := by
      rw [Bool.or_eq_true, h.contains_globals_iff, h.contains_signatures_iff]
      cases first with
      | global f => exact Or.inl ⟨f, hfirst⟩
      | routine s => exact Or.inr ⟨s, hfirst⟩
    unfold Attempt.edit Edit.declareGlobal
    rw [Edit.run_attempt, declareGlobal, if_pos htaken]
    rfl
  | routine s =>
    unfold Attempt.edit Edit.declareSignature
    rw [Edit.run_attempt, declareRoutine]
    cases first with
    | global f =>
      have hglobal : r.globals.contains s.name = true := h.contains_globals_iff.mpr ⟨f, hfirst⟩
      simp [hglobal, Attempt.refusedFor]
    | routine f =>
      have hglobal : r.globals.contains s.name = false := by
        rw [← Bool.not_eq_true, h.contains_globals_iff,
          show Attempt.first? earlier s.name = some (.routine f) from hfirst]
        exact fun hd => nomatch hd
      have hroutine : r.signatures.contains s.name = true :=
        h.contains_signatures_iff.mpr ⟨f, hfirst⟩
      simp [hglobal, hroutine, Attempt.refusedFor]

/-- An attempt is answered by the earlier ones, and then it is one of them. -/
theorem Holds.attempted (h : r.Holds earlier) (a : Attempt) :
    (a.edit.run r).1.result = (a.refusal? earlier).elim (.ok ()) .error ∧
      (a.edit.run r).2.Holds (earlier ++ [a]) := by
  unfold Attempt.refusal?
  cases hfirst : Attempt.first? earlier a.name with
  | none => exact h.run_edit_of_new hfirst
  | some first =>
    have hsame : ∀ name, Attempt.first? (earlier ++ [a]) name = Attempt.first? earlier name :=
      Attempt.first?_concat_of_known hfirst
    rw [h.run_edit_of_known hfirst]
    refine ⟨rfl, ?_, ?_⟩
    · intro name ty
      rw [hsame]
      exact h.globals name ty
    · intro name s
      rw [hsame]
      exact h.signatures name s

/-! ## Runs -/

/-- Attempts that are made one after the other are answered by those before them. -/
theorem Holds.tries (as : List Attempt) :
    ∀ {r : Registry} {earlier : List Attempt}, r.Holds earlier →
      (r.tries as).1 = Trial.judged earlier ((r.tries as).1.map Trial.attempt) ∧
        (r.tries as).2.Holds (earlier ++ (r.tries as).1.map Trial.attempt) := by
  induction as with
  | nil =>
    intro r earlier h
    refine ⟨rfl, ?_⟩
    simpa [Registry.tries] using h
  | cons a as ih =>
    intro r earlier h
    obtain ⟨hanswer, hheld⟩ := h.attempted a
    unfold Registry.tries
    dsimp only
    rw [hanswer]
    -- a refusal ends the attempts, and without one the others follow this one
    cases hrefusal : a.refusal? earlier with
    | none =>
      obtain ⟨hjudged, hrest⟩ := ih hheld
      rw [List.append_assoc] at hrest
      refine ⟨?_, hrest⟩
      show Trial.mk a none :: _ = Trial.mk a (a.refusal? earlier) :: Trial.judged _ _
      rw [hrefusal, ← hjudged]
    | some e =>
      refine ⟨?_, hheld⟩
      show [Trial.mk a (some e)] = [Trial.mk a (a.refusal? earlier)]
      rw [hrefusal]

end Registry

namespace Edit

variable {α β : Type} {x : Edit α} {r : Registry}

/-- Behind a failure nothing is done. -/
theorem run_bind_of_error {e : Violation} (h : (x.run r).1.result = .error e) (f : α → Edit β) :
    ((x >>= f).run r).1.result = .error e ∧ ((x >>= f).run r).2 = (x.run r).2 := by
  rw [run_bind]
  generalize x.run r = outcome at h ⊢
  obtain ⟨⟨result, log⟩, r₁⟩ := outcome
  cases h
  exact ⟨rfl, rfl⟩

theorem run_bind_of_ok {a : α} (h : (x.run r).1.result = .ok a) (f : α → Edit β) :
    ((x >>= f).run r).1.result = ((f a).run (x.run r).2).1.result ∧
      ((x >>= f).run r).2 = ((f a).run (x.run r).2).2 := by
  rw [run_bind]
  generalize x.run r = outcome at h ⊢
  obtain ⟨⟨result, log⟩, r₁⟩ := outcome
  cases h
  exact ⟨rfl, rfl⟩

/-- An edit that makes attempts is refused like the first of them that is, and leaves what they
leave. -/
theorem run_forM_attempts (as : List Attempt) :
    ∀ r : Registry, ((as.forM Attempt.edit).run r).2 = (r.tries as).2 ∧
      ((as.forM Attempt.edit).run r).1.result =
        ((r.tries as).1.findSome? Trial.refusal?).elim (.ok ()) .error := by
  induction as with
  | nil =>
    intro r
    exact ⟨rfl, rfl⟩
  | cons a as ih =>
    intro r
    rw [show (a :: as).forM Attempt.edit = a.edit >>= fun _ => as.forM Attempt.edit from rfl]
    unfold Registry.tries
    dsimp only
    cases hresult : (a.edit.run r).1.result with
    | error e =>
      obtain ⟨hfails, hleaves⟩ := run_bind_of_error hresult fun _ => as.forM Attempt.edit
      rw [hfails, hleaves]
      exact ⟨rfl, rfl⟩
    | ok u =>
      obtain ⟨hgoes, hleaves⟩ := run_bind_of_ok hresult fun _ => as.forM Attempt.edit
      rw [hgoes, hleaves]
      exact ih (a.edit.run r).2

end Edit

namespace Operation

/-- An operation makes its attempts and then what is left to do. -/
theorem edit_eq (op : Operation) :
    op.edit = op.attempts.forM Attempt.edit >>= fun _ => op.rest := by
  have hone : ∀ a : Attempt, [a].forM Attempt.edit = a.edit := fun a => bind_pure_unit (x := a.edit)
  -- an operation that makes one attempt and nothing else
  have hsingle : ∀ a : Attempt, a.edit = [a].forM Attempt.edit >>= fun _ => pure () := by
    intro a
    rw [hone]
    exact (bind_pure_unit (x := a.edit)).symm
  cases op with
  | declareGlobal d => exact hsingle (.global d)
  | declareRoutine s => exact hsingle (.routine s)
  | collectGlobals ds =>
    show _ = (ds.map Attempt.global).forM Attempt.edit >>= fun _ => rest _
    rw [List.forM_eq_forM, List.forM_map]
    rfl
  | declareSignature h => exact hsingle (.routine h.signature)
  | collectSignatureAndLocals h =>
    show _ = [Attempt.routine h.signature].forM Attempt.edit >>= fun _ => rest _
    rw [hone]
    exact bind_assoc (Edit.declareSignature h.signature) (fun _ => Edit.collectLocals h)
      fun _ => pure ()
  | insertLocals owner table => exact (pure_bind () fun _ => Edit.insertLocals owner table).symm

/-- What is done behind the attempts declares nothing. -/
theorem rest_keeps (op : Operation) (r : Registry) :
    (op.rest.run r).2.globals = r.globals ∧ (op.rest.run r).2.signatures = r.signatures := by
  cases op with
  | collectSignatureAndLocals h =>
    have hsame : ((Operation.collectSignatureAndLocals h).rest.run r).2 = r := by
      show ((Edit.collectLocals h >>= fun _ => pure ()).run r).2 = r
      unfold Edit.collectLocals
      rw [Edit.run_bind, Edit.run_read]
      generalize r.collectLocals h = outcome
      obtain ⟨result, log⟩ := outcome
      cases result <;> rfl
    rw [hsame]
    exact ⟨rfl, rfl⟩
  | _ => exact ⟨rfl, rfl⟩

end Operation

namespace Registry

variable {r r₁ : Registry} {earlier : List Attempt}

/-- What a registry holds is a matter of its globals and signatures only. -/
theorem Holds.of_eq (h : r.Holds earlier) (hglobals : r₁.globals = r.globals)
    (hsignatures : r₁.signatures = r.signatures) : r₁.Holds earlier := by
  constructor
  · intro name ty
    simpa [global?, hglobals] using h.globals name ty
  · intro name s
    simpa [signature?, hsignatures] using h.signatures name s

/-- An operation leaves the globals and signatures that its attempts leave. Its answer is the
refusal of one of these, or else that of what is left to do. -/
theorem after_eq (r : Registry) (op : Operation) :
    ((r.after op).globals = (r.tries op.attempts).2.globals ∧
      (r.after op).signatures = (r.tries op.attempts).2.signatures) ∧
        (op.edit.run r).1.result = ((r.tries op.attempts).1.findSome? Trial.refusal?).elim
          (op.rest.run (r.tries op.attempts).2).1.result .error := by
  obtain ⟨hleaves, hresult⟩ := Edit.run_forM_attempts op.attempts r
  unfold after
  rw [op.edit_eq]
  -- what is left to do is done only if no attempt was refused
  cases hrefused : (r.tries op.attempts).1.findSome? Trial.refusal? with
  | some e =>
    rw [hrefused] at hresult
    obtain ⟨hfails, hstops⟩ := Edit.run_bind_of_error hresult fun _ => op.rest
    rw [hstops, hleaves]
    exact ⟨⟨rfl, rfl⟩, hfails⟩
  | none =>
    rw [hrefused] at hresult
    obtain ⟨hanswers, hgoes⟩ := Edit.run_bind_of_ok hresult fun _ => op.rest
    rw [hgoes, hanswers, hleaves]
    exact ⟨op.rest_keeps _, rfl⟩

/-- A run of operations makes attempts that are answered by those before them. -/
theorem Holds.afterAll (ops : List Operation) :
    ∀ {r : Registry} {earlier : List Attempt}, r.Holds earlier →
      r.trials ops = Trial.judged earlier ((r.trials ops).map Trial.attempt) ∧
        (r.afterAll ops).Holds (earlier ++ (r.trials ops).map Trial.attempt) := by
  induction ops with
  | nil =>
    intro r earlier h
    refine ⟨rfl, ?_⟩
    simpa [Registry.trials, Registry.afterAll] using h
  | cons op ops ih =>
    intro r earlier h
    obtain ⟨hjudged, hheld⟩ := h.tries op.attempts
    obtain ⟨⟨hglobals, hsignatures⟩, -⟩ := r.after_eq op
    obtain ⟨hlater, hall⟩ := ih (hheld.of_eq hglobals hsignatures)
    show (r.tries op.attempts).1 ++ (r.after op).trials ops = Trial.judged earlier
        (((r.tries op.attempts).1 ++ (r.after op).trials ops).map Trial.attempt) ∧
      ((r.after op).afterAll ops).Holds (earlier ++
        ((r.tries op.attempts).1 ++ (r.after op).trials ops).map Trial.attempt)
    rw [List.map_append, Trial.judged_append, ← hjudged, ← hlater, ← List.append_assoc]
    exact ⟨rfl, hall⟩

/-- The built-in routines are what is declared first. -/
theorem holds_initial : initial.Holds Attempt.ofBuiltins := by
  have hfirst : ∀ name, Attempt.first? Attempt.ofBuiltins name =
      (declaredSignature? builtins name).map .routine := by
    intro name
    unfold Attempt.first? Attempt.ofBuiltins declaredSignature?
    rw [List.find?_map]
    rfl
  have hsignature : ∀ name, initial.signature? name = declaredSignature? builtins name := by
    intro name
    have hdistinct : ((builtins.map fun s => (s.name, s)).map Prod.fst).Nodup := by decide
    unfold signature? initial declaredSignature?
    dsimp only
    rw [Table.get?_ofList hdistinct, lookup_map_eq, Option.map_id']
  constructor
  · intro name ty
    rw [hfirst]
    refine iff_of_false nofun fun h => ?_
    obtain ⟨s, -, hs⟩ := Option.map_eq_some_iff.mp h
    cases hs
  · intro name s
    rw [hfirst, hsignature, Option.map_eq_some_iff]
    simp

@[simp]
theorem trials_append (r : Registry) (xs ys : List Operation) :
    r.trials (xs ++ ys) = r.trials xs ++ (r.afterAll xs).trials ys := by
  induction xs generalizing r with
  | nil => rfl
  | cons op xs ih =>
    simp [trials, afterAll, ih]

/-- All attempts for names up to the end of a run, the built-in routines before all others. -/
def history (ops : List Operation) : List Attempt :=
  Attempt.ofBuiltins ++ (initial.trials ops).map Trial.attempt

/-- In a run from the initial registry the first declaration of each name counts, and no other. -/
structure FirstDeclarationsCount (ops : List Operation) : Prop where
  /-- An attempt is refused if and only if an earlier one had its name, and for that reason. -/
  answers : ∀ before t behind, initial.trials ops = before ++ t :: behind →
    t.refusal? = t.attempt.refusal? (Attempt.ofBuiltins ++ before.map Trial.attempt)
  /-- An operation answers by the refusal of one of its attempts, or else by what is left to do. -/
  reported : ∀ before op behind, ops = before ++ op :: behind →
    (op.edit.run (initial.afterAll before)).1.result =
      (((initial.afterAll before).tries op.attempts).1.findSome? Trial.refusal?).elim
        (op.rest.run ((initial.afterAll before).tries op.attempts).2).1.result .error
  /-- The names of globals are those that belong to the attempt to declare this global. -/
  globals : ∀ name ty, (initial.afterAll ops).global? name = some ty ↔
    Attempt.first? (history ops) name = some (.global ⟨name, ty⟩)
  signatures : ∀ name s, (initial.afterAll ops).signature? name = some s ↔
    Attempt.first? (history ops) name = some (.routine s)
  /-- A name that was ever to be declared is in one of the tables. -/
  declared : ∀ a ∈ history ops, (initial.afterAll ops).globals.contains a.name = true ∨
    (initial.afterAll ops).signatures.contains a.name = true
  disjoint : ∀ name, ¬((initial.afterAll ops).globals.contains name = true ∧
    (initial.afterAll ops).signatures.contains name = true)
  /-- What is in a table in the course of the run is there at its end. -/
  kept_globals : ∀ before behind, ops = before ++ behind → ∀ name ty,
    (initial.afterAll before).global? name = some ty → (initial.afterAll ops).global? name = some ty
  kept_signatures : ∀ before behind, ops = before ++ behind → ∀ name s,
    (initial.afterAll before).signature? name = some s →
      (initial.afterAll ops).signature? name = some s
  named : ∀ name s, (initial.afterAll ops).signature? name = some s → s.name = name
  builtin : ∀ s ∈ builtins, (initial.afterAll ops).signature? s.name = some s

theorem holds_afterAll (ops : List Operation) : (initial.afterAll ops).Holds (history ops) :=
  (holds_initial.afterAll ops).2

theorem history_append (before behind : List Operation) :
    history (before ++ behind) =
      history before ++ ((initial.afterAll before).trials behind).map Trial.attempt := by
  simp [history]

/-- A name is in at most one of the tables. -/
theorem Holds.disjoint (h : r.Holds earlier) (name : String) :
    ¬(r.globals.contains name = true ∧ r.signatures.contains name = true) := by
  intro hboth
  obtain ⟨d, hglobal⟩ := h.contains_globals_iff.mp hboth.1
  obtain ⟨s, hroutine⟩ := h.contains_signatures_iff.mp hboth.2
  rw [hglobal] at hroutine
  cases hroutine

/-- The name of an attempt is in one of the tables. -/
theorem Holds.contains_name (h : r.Holds earlier) {a : Attempt} (ha : a ∈ earlier) :
    r.globals.contains a.name = true ∨ r.signatures.contains a.name = true := by
  rw [h.contains_globals_iff, h.contains_signatures_iff]
  cases hfirst : Attempt.first? earlier a.name with
  | none => exact absurd hfirst (Attempt.first?_ne_none ha)
  | some first =>
    cases first with
    | global d => exact Or.inl ⟨d, rfl⟩
    | routine s => exact Or.inr ⟨s, rfl⟩

theorem firstDeclarationsCount (ops : List Operation) : FirstDeclarationsCount ops := by
  obtain ⟨hjudged, hheld⟩ := holds_initial.afterAll ops
  -- what was attempted first in the front of the run was attempted first in all of it
  have hkept : ∀ before behind, ops = before ++ behind → ∀ name first,
      Attempt.first? (history before) name = some first →
        Attempt.first? (history ops) name = some first := by
    intro before behind hops name first hfirst
    rw [hops, history_append]
    exact Attempt.first?_append_of_some hfirst _
  constructor
  case answers =>
    intro before t behind htrials
    rw [htrials] at hjudged
    exact Trial.refusal?_of_judged hjudged
  case reported =>
    intro before op behind _
    exact ((initial.afterAll before).after_eq op).2
  case globals => exact hheld.globals
  case signatures => exact hheld.signatures
  case declared => exact fun a ha => hheld.contains_name ha
  case disjoint => exact hheld.disjoint
  case kept_globals =>
    intro before behind hops name ty hty
    have hfirst := ((holds_afterAll before).globals name ty).mp hty
    exact (hheld.globals name ty).mpr (hkept before behind hops name _ hfirst)
  case kept_signatures =>
    intro before behind hops name s hs
    have hfirst := ((holds_afterAll before).signatures name s).mp hs
    exact (hheld.signatures name s).mpr (hkept before behind hops name _ hfirst)
  case named =>
    intro name s hs
    exact Attempt.name_of_first? ((hheld.signatures name s).mp hs)
  case builtin =>
    intro s hs
    have hbuiltin : initial.signature? s.name = some s := by
      revert s
      decide
    have hfirst := (holds_initial.signatures s.name s).mp hbuiltin
    exact (hheld.signatures s.name s).mpr (Attempt.first?_append_of_some hfirst _)

/-- A refused global ends the operation, and the name stays that of the first global. -/
example : (initial.trials [.declareGlobal ⟨"x", .integer⟩,
    .collectGlobals [⟨"y", .integer⟩, ⟨"x", .string⟩, ⟨"z", .integer⟩],
    .declareRoutine ⟨"x", .none, []⟩]).map Trial.refusal? =
      [none, none, some (.duplicateGlobal "x"), some (.routineTakesGlobal "x")] := by
  decide

end Registry

end StaticCheck
