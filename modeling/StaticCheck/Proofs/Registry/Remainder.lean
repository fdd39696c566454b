import StaticCheck.Proofs.Registry.FirstDeclaration
import StaticCheck.Proofs.Registry.LocalNames

/-!
# What a refused operation leaves

An operation that makes several changes keeps those that it made before it was refused. From any
registry, the globals in front of the first one that clashes stay declared and nothing else changes
(`Registry.CollectsGlobals`). A routine whose own name is refused leaves the registry as it was, and
one with a local name that is refused leaves its signature and no local table
(`Registry.CollectsRoutine`). `Registry.left_by_collections` puts the two together.

So a routine cannot be declared again after one of its local names was refused: its name is that of a
routine from then on, and no operation changes this (`Registry.NamesRoutine`).
-/

namespace StaticCheck

namespace Violation

/-- The violation of a routine whose name is taken. -/
def OfRoutine : Violation → Prop
  | routineTakesGlobal _ | duplicateRoutine _ => True
  | _ => False

/-- The violation of a parameter or a local variable whose name is taken. -/
def OfLocalName : Violation → Prop
  | parameterTakesGlobal _ _ | duplicateParameter _ _ | localTakesGlobal _ _ | duplicateLocal _ _ =>
    True
  | _ => False

theorem ofLocalName_refusal (kind : LocalKind) (routine name : String) (isGlobal : Bool) :
    (kind.refusal routine name isGlobal).OfLocalName := by
  cases kind <;> cases isGlobal <;> exact trivial

theorem OfLocalName.not_ofRoutine {e : Violation} (h : e.OfLocalName) : ¬e.OfRoutine := by
  cases e with
  | routineTakesGlobal name => exact h.elim
  | duplicateRoutine name => exact h.elim
  | _ => exact id

end Violation

namespace Registry

/-- A global or a routine has the name. -/
def Knows (r : Registry) (name : String) : Prop :=
  r.globals.contains name = true ∨ r.signatures.contains name = true

/-- The name is that of a routine and not that of a global. -/
structure NamesRoutine (r : Registry) (name : String) : Prop where
  not_global : ¬r.globals.contains name = true
  routine : r.signatures.contains name = true

/-- The registry `r₁` has these declarations as globals besides those of `r`, and is otherwise
`r`. -/
structure AddsGlobals (r : Registry) (ds : List Declaration) (r₁ : Registry) : Prop where
  globals : ∀ name ty, r₁.global? name = some ty ↔ r.global? name = some ty ∨ ⟨name, ty⟩ ∈ ds
  size : r₁.globals.size = r.globals.size + ds.length
  signatures : r₁.signatures = r.signatures
  locals : r₁.locals = r.locals

/-- The registry `r₁` has the signature of this routine besides those of `r`, and is otherwise
`r`. -/
structure AddsSignature (r : Registry) (h : Header) (r₁ : Registry) : Prop where
  new : ¬r.Knows h.name
  signature : r₁.signature? h.name = some h.signature
  signatures : ∀ name, name ≠ h.name → r₁.signature? name = r.signature? name
  globals : r₁.globals = r.globals
  locals : r₁.locals = r.locals

/-- An operation in `r` that answers `result` and leaves `r₁` collects globals up to the first one
whose name is known or repeats an earlier one. -/
structure CollectsGlobals (r : Registry) (ds : List Declaration) (result : Except Violation Unit)
    (r₁ : Registry) : Prop where
  failure : ∀ e, result = .error e ↔
    ∃ k d, FirstClash r.Knows (names ds) k ∧ ds[k]? = some d ∧ e = .duplicateGlobal d.name
  left : ∀ k, FirstClash r.Knows (names ds) k → r.AddsGlobals (ds.take k) r₁
  success : result = .ok () ↔ ∀ k, ¬ClashAt r.Knows (names ds) k
  all : result = .ok () → r.AddsGlobals ds r₁

/-- An operation in `r` that answers `result` and leaves `r₁` refuses a routine either for its own
name, and then changes nothing, or for a local name, and then adds its signature. -/
structure CollectsRoutine (r : Registry) (h : Header) (result : Except Violation LocalTable)
    (r₁ : Registry) : Prop where
  global : result = .error (.routineTakesGlobal h.name) ↔ r.globals.contains h.name = true
  duplicate : result = .error (.duplicateRoutine h.name) ↔ r.NamesRoutine h.name
  fresh : ¬r.Knows h.name → result = (r.collectLocals h).result
  kinds : ∀ e, result = .error e → e.OfRoutine ∨ e.OfLocalName
  unchanged : ∀ e, result = .error e → e.OfRoutine → r₁ = r
  declared : ∀ e, result = .error e → e.OfLocalName → r.AddsSignature h r₁
  /-- Behind any further operations, each one that is to declare a routine of this name is refused. -/
  stuck : ∀ e, result = .error e → e.OfLocalName →
    ∀ (ops : List Operation) (op : Operation) (s : Signature), op.attempts = [.routine s] →
      s.name = h.name →
        (op.edit.run (r₁.afterAll ops)).1.result = .error (.duplicateRoutine h.name)

end Registry

/-! ## Attempts in a row -/

namespace Edit

variable {α : Type} {r r₁ : Registry}

theorem run_attempt_of_ok (f : Registry → Except Violation Registry) (done : Record)
    (h : f r = .ok r₁) :
    ((attempt f done).run r).1.result = .ok () ∧ ((attempt f done).run r).2 = r₁ := by
  simp [run_attempt, h]

theorem run_attempt_of_error (f : Registry → Except Violation Registry) (done : Record)
    {e : Violation} (h : f r = .error e) :
    ((attempt f done).run r).1.result = .error e ∧ ((attempt f done).run r).2 = r := by
  simp [run_attempt, h]

variable {f : Registry → α → Except Violation Registry}

/-- Makes an attempt for each member of a list. -/
def attemptEach (f : Registry → α → Except Violation Registry) (done : α → Record) (as : List α) :
    Edit Unit :=
  as.forM fun a => attempt (f · a) (done a)

theorem attemptEach_cons (done : α → Record) (a : α) (as : List α) :
    attemptEach f done (a :: as) =
      attempt (f · a) (done a) >>= fun _ => attemptEach f done as := rfl

theorem attemptEach_append (done : α → Record) (as bs : List α) :
    attemptEach f done (as ++ bs) = attemptEach f done as >>= fun _ => attemptEach f done bs :=
  List.forM_append

/-- Attempts that all succeed leave what the last of them does. -/
theorem run_attemptEach_of_ok (done : α → Record) {as : List α} :
    ∀ {r : Registry}, as.foldlM f r = .ok r₁ →
      ((attemptEach f done as).run r).1.result = .ok () ∧
        ((attemptEach f done as).run r).2 = r₁ := by
  induction as with
  | nil =>
    intro r h
    cases h
    exact ⟨rfl, rfl⟩
  | cons a as ih =>
    intro r h
    rw [List.foldlM_cons] at h
    cases hstep : f r a with
    | error e => simp [hstep] at h
    | ok r₂ =>
      rw [hstep] at h
      obtain ⟨hok, hleft⟩ := run_attempt_of_ok (f · a) (done a) hstep
      obtain ⟨hresult, hrest⟩ := run_bind_of_ok hok fun _ => attemptEach f done as
      rw [attemptEach_cons, hresult, hrest, hleft]
      exact ih h

/-- The first attempt that is refused ends the others, and leaves what those in front of it do. -/
theorem run_attemptEach_of_refused (done : α → Record) {front : List α} {a : α} (back : List α)
    {e : Violation} (hfront : front.foldlM f r = .ok r₁) (hrefused : f r₁ a = .error e) :
    ((attemptEach f done (front ++ a :: back)).run r).1.result = .error e ∧
      ((attemptEach f done (front ++ a :: back)).run r).2 = r₁ := by
  obtain ⟨hok, hleft⟩ := run_attemptEach_of_ok done hfront
  obtain ⟨hresult, hrest⟩ := run_bind_of_ok hok fun _ => attemptEach f done (a :: back)
  obtain ⟨herror, hsame⟩ := run_attempt_of_error (f · a) (done a) hrefused
  obtain ⟨hfails, hstops⟩ := run_bind_of_error herror fun _ => attemptEach f done back
  rw [attemptEach_append, hresult, hrest, hleft, attemptEach_cons, hfails, hstops]
  exact ⟨rfl, hsame⟩

end Edit

namespace Registry

variable {r : Registry} {ds : List Declaration} {d : Declaration} {name : String}

/-! ## Globals -/

/-- The registry with a further global. -/
def addGlobal (r : Registry) (d : Declaration) : Registry :=
  { r with globals := r.globals.insert d.name d.ty }

@[simp]
theorem knows_addGlobal : (r.addGlobal d).Knows name ↔ r.Knows name ∨ name = d.name := by
  simp [Knows, addGlobal, or_assoc, or_comm (a := name = _)]

theorem admits_declareGlobal :
    Admits Declaration.name Knows addGlobal (fun _ d => .duplicateGlobal d.name) declareGlobal where
  added := fun hnew => if_neg fun hor => hnew (Bool.or_eq_true_iff.mp hor)
  refused := fun hknown => if_pos (Bool.or_eq_true_iff.mpr hknown)
  taken_add := fun _ _ _ => knows_addGlobal

theorem addsGlobals_addGlobal (hnew : ¬r.Knows d.name) : r.AddsGlobals [d] (r.addGlobal d) where
  globals := by
    intro name ty
    have hnone : r.global? d.name = none :=
      Table.contains_eq_false_iff.mp (Bool.eq_false_iff.mpr fun h => hnew (Or.inl h))
    obtain ⟨own, ownTy⟩ := d
    by_cases hname : name = own
    · subst hname
      rw [hnone]
      simp [addGlobal, global?, eq_comm]
    · simp [addGlobal, global?, hname]
  size := by
    have hfree : ¬r.globals.contains d.name = true := fun h => hnew (Or.inl h)
    simp [addGlobal, Table.size_insert, hfree]
  signatures := rfl
  locals := rfl

theorem AddsGlobals.trans {r₁ r₂ : Registry} {es : List Declaration} (h : r.AddsGlobals ds r₁)
    (h₁ : r₁.AddsGlobals es r₂) : r.AddsGlobals (ds ++ es) r₂ where
  globals := by
    intro name ty
    simp [h₁.globals, h.globals, or_assoc]
  size := by
    simp [h₁.size, h.size, Nat.add_assoc]
  signatures := h₁.signatures.trans h.signatures
  locals := h₁.locals.trans h.locals

theorem addsGlobals_foldl :
    ∀ {r : Registry}, (∀ k, ¬ClashAt r.Knows (names ds) k) →
      r.AddsGlobals ds (ds.foldl addGlobal r) := by
  induction ds with
  | nil =>
    intro r _
    exact ⟨fun _ _ => by simp, rfl, rfl, rfl⟩
  | cons d ds ih =>
    intro r hclear
    obtain ⟨hnew, hrest⟩ := forall_not_clashAt_cons_iff.mp hclear
    have hknows : (r.addGlobal d).Knows = fun name => r.Knows name ∨ name = d.name :=
      funext fun _ => propext knows_addGlobal
    exact (addsGlobals_addGlobal hnew).trans (ih (hknows ▸ hrest))

/-- The record of a declared global. -/
def globalRecord (d : Declaration) : Record :=
  .declaringGlobal d.name d.ty

theorem collectGlobals_eq (ds : List Declaration) :
    Edit.collectGlobals ds = Edit.attemptEach declareGlobal globalRecord ds >>= fun _ =>
      Edit.read fun r => .emit (.globals r.globals) := rfl

theorem run_collectGlobals_of_clear (hclear : ∀ k, ¬ClashAt r.Knows (names ds) k) :
    ((Edit.collectGlobals ds).run r).1.result = .ok () ∧
      r.AddsGlobals ds ((Edit.collectGlobals ds).run r).2 := by
  have hfold : ds.foldlM declareGlobal r = .ok (ds.foldl addGlobal r) :=
    admits_declareGlobal.foldlM_of_clear hclear
  obtain ⟨hok, hleft⟩ := Edit.run_attemptEach_of_ok globalRecord hfold
  obtain ⟨hresult, hrest⟩ := Edit.run_bind_of_ok hok fun _ =>
    Edit.read fun r => .emit (.globals r.globals)
  rw [collectGlobals_eq, hresult, hrest, hleft]
  exact ⟨rfl, addsGlobals_foldl hclear⟩

theorem run_collectGlobals_of_firstClash {k : Nat} (hk : FirstClash r.Knows (names ds) k) :
    ∃ d, ds[k]? = some d ∧
      ((Edit.collectGlobals ds).run r).1.result = .error (.duplicateGlobal d.name) ∧
        r.AddsGlobals (ds.take k) ((Edit.collectGlobals ds).run r).2 := by
  obtain ⟨d, hd, hsplit, hclear, hrefused⟩ := admits_declareGlobal.exists_of_firstClash hk
  have hfold : (ds.take k).foldlM declareGlobal r = .ok ((ds.take k).foldl addGlobal r) :=
    admits_declareGlobal.foldlM_of_clear hclear
  obtain ⟨herror, hleft⟩ :=
    Edit.run_attemptEach_of_refused globalRecord (ds.drop (k + 1)) hfold hrefused
  rw [← hsplit] at herror hleft
  obtain ⟨hresult, hstops⟩ := Edit.run_bind_of_error herror fun _ =>
    Edit.read fun r => .emit (.globals r.globals)
  rw [collectGlobals_eq, hresult, hstops, hleft]
  exact ⟨d, hd, rfl, addsGlobals_foldl hclear⟩

theorem collectsGlobals (r : Registry) (ds : List Declaration) :
    r.CollectsGlobals ds ((Edit.collectGlobals ds).run r).1.result
      ((Edit.collectGlobals ds).run r).2 := by
  by_cases hclash : ∃ k, ClashAt r.Knows (names ds) k
  · obtain ⟨k, hk⟩ := exists_firstClash hclash
    obtain ⟨d, hd, hresult, hleft⟩ := run_collectGlobals_of_firstClash hk
    rw [hresult]
    constructor
    case failure =>
      intro e
      rw [Except.error.injEq]
      constructor
      · rintro rfl
        exact ⟨k, d, hk, hd, rfl⟩
      · rintro ⟨j, c, hj, hc, rfl⟩
        rw [hj.unique hk, hd] at hc
        cases hc
        rfl
    case left =>
      intro j hj
      rw [hj.unique hk]
      exact hleft
    case success => exact iff_of_false nofun fun hclear => hclear k hk.1
    case all => exact nofun
  · have hclear : ∀ k, ¬ClashAt r.Knows (names ds) k := not_exists.mp hclash
    obtain ⟨hresult, hleft⟩ := run_collectGlobals_of_clear hclear
    rw [hresult]
    constructor
    case failure => exact fun e => iff_of_false nofun fun ⟨k, _, hk, _⟩ => hclear k hk.1
    case left => exact fun k hk => absurd hk.1 (hclear k)
    case success => exact iff_of_true rfl hclear
    case all => exact fun _ => hleft

/-! ## Routines -/

/-- The registry with a further signature. -/
def addSignature (r : Registry) (s : Signature) : Registry :=
  { r with signatures := r.signatures.insert s.name s }

theorem declareRoutine_of_new {s : Signature} (h : ¬r.Knows s.name) :
    r.declareRoutine s = .ok (r.addSignature s) := by
  unfold declareRoutine
  rw [if_neg fun hglobal => h (Or.inl hglobal), if_neg fun hroutine => h (Or.inr hroutine)]
  rfl

theorem declareRoutine_of_global {s : Signature} (h : r.globals.contains s.name = true) :
    r.declareRoutine s = .error (.routineTakesGlobal s.name) :=
  if_pos h

theorem NamesRoutine.declareRoutine_eq {s : Signature} (h : r.NamesRoutine s.name) :
    r.declareRoutine s = .error (.duplicateRoutine s.name) := by
  unfold declareRoutine
  rw [if_neg h.not_global, if_pos h.routine]

/-- A name is that of a global, that of a routine alone, or new. -/
theorem knows_cases (r : Registry) (name : String) :
    r.globals.contains name = true ∨ r.NamesRoutine name ∨ ¬r.Knows name := by
  unfold Knows
  cases hglobal : r.globals.contains name with
  | true => exact Or.inl rfl
  | false =>
    cases hroutine : r.signatures.contains name with
    | true => exact Or.inr (Or.inl ⟨Bool.eq_false_iff.mp hglobal, hroutine⟩)
    | false => exact Or.inr (Or.inr nofun)

theorem addsSignature_addSignature {h : Header} (hnew : ¬r.Knows h.name) :
    r.AddsSignature h (r.addSignature h.signature) where
  new := hnew
  signature := Table.get?_insert_self ..
  signatures := fun _ hne => Table.get?_insert_of_ne _ _ hne
  globals := rfl
  locals := rfl

theorem AddsSignature.namesRoutine {h : Header} {r₁ : Registry} (hadds : r.AddsSignature h r₁) :
    r₁.NamesRoutine h.name where
  not_global := by
    rw [hadds.globals]
    exact fun hglobal => hadds.new (Or.inl hglobal)
  routine := Table.contains_eq_true_iff.mpr ⟨_, hadds.signature⟩

/-- No attempt takes its name from a routine. -/
theorem NamesRoutine.attempted (h : r.NamesRoutine name) (a : Attempt) :
    (a.edit.run r).2.NamesRoutine name := by
  cases a with
  | global d =>
    by_cases hknown : r.Knows d.name
    · rw [show ((Attempt.global d).edit.run r).2 = r from
        (Edit.run_attempt_of_error _ _ (admits_declareGlobal.refused hknown)).2]
      exact h
    · rw [show ((Attempt.global d).edit.run r).2 = r.addGlobal d from
        (Edit.run_attempt_of_ok _ _ (admits_declareGlobal.added hknown)).2]
      have hne : name ≠ d.name := fun heq => hknown (heq ▸ Or.inr h.routine)
      refine ⟨?_, h.routine⟩
      simpa [addGlobal, hne] using h.not_global
  | routine s =>
    rcases r.knows_cases s.name with hglobal | hroutine | hnew
    · rw [show ((Attempt.routine s).edit.run r).2 = r from
        (Edit.run_attempt_of_error _ _ (declareRoutine_of_global hglobal)).2]
      exact h
    · rw [show ((Attempt.routine s).edit.run r).2 = r from
        (Edit.run_attempt_of_error _ _ hroutine.declareRoutine_eq).2]
      exact h
    · rw [show ((Attempt.routine s).edit.run r).2 = r.addSignature s from
        (Edit.run_attempt_of_ok _ _ (declareRoutine_of_new hnew)).2]
      refine ⟨h.not_global, ?_⟩
      simp [addSignature, h.routine]

theorem NamesRoutine.tries (as : List Attempt) :
    ∀ {r : Registry}, r.NamesRoutine name → (r.tries as).2.NamesRoutine name := by
  induction as with
  | nil => exact fun h => h
  | cons a as ih =>
    intro r h
    unfold Registry.tries
    dsimp only
    cases (a.edit.run r).1.result with
    | error e => exact h.attempted a
    | ok u => exact ih (h.attempted a)

/-- No operation takes its name from a routine, whether or not it fails. -/
theorem NamesRoutine.after (h : r.NamesRoutine name) (op : Operation) :
    (r.after op).NamesRoutine name := by
  obtain ⟨⟨hglobals, hsignatures⟩, -⟩ := r.after_eq op
  have htries := h.tries op.attempts
  exact ⟨hglobals ▸ htries.not_global, hsignatures ▸ htries.routine⟩

theorem NamesRoutine.afterAll (ops : List Operation) :
    ∀ {r : Registry}, r.NamesRoutine name → (r.afterAll ops).NamesRoutine name := by
  induction ops with
  | nil => exact fun h => h
  | cons op ops ih => exact fun h => ih (h.after op)

/-- An operation that is to declare a routine of a name that a routine has is refused. -/
theorem NamesRoutine.result_edit {op : Operation} {s : Signature} (h : r.NamesRoutine s.name)
    (hop : op.attempts = [.routine s]) :
    (op.edit.run r).1.result = .error (.duplicateRoutine s.name) := by
  have hrefused : ((Attempt.routine s).edit.run r).1.result = .error (.duplicateRoutine s.name) :=
    (Edit.run_attempt_of_error _ _ h.declareRoutine_eq).1
  rw [(r.after_eq op).2, hop]
  unfold Registry.tries
  rw [hrefused]
  rfl

/-- A routine is collected in one of three ways, by what its name is in the registry. -/
theorem run_collectSignatureAndLocals (r : Registry) (h : Header) :
    (r.globals.contains h.name = true ∧
      ((Edit.collectSignatureAndLocals h).run r).1.result = .error (.routineTakesGlobal h.name) ∧
        ((Edit.collectSignatureAndLocals h).run r).2 = r) ∨
    (r.NamesRoutine h.name ∧
      ((Edit.collectSignatureAndLocals h).run r).1.result = .error (.duplicateRoutine h.name) ∧
        ((Edit.collectSignatureAndLocals h).run r).2 = r) ∨
    (¬r.Knows h.name ∧
      ((Edit.collectSignatureAndLocals h).run r).1.result = (r.collectLocals h).result ∧
        ((Edit.collectSignatureAndLocals h).run r).2 = r.addSignature h.signature) := by
  have hrefused : ∀ e, r.declareRoutine h.signature = .error e →
      ((Edit.collectSignatureAndLocals h).run r).1.result = .error e ∧
        ((Edit.collectSignatureAndLocals h).run r).2 = r := by
    intro e he
    obtain ⟨herror, hsame⟩ := Edit.run_attempt_of_error (·.declareRoutine h.signature)
      (.declaringSignature h.name h.signature.returnTy) he
    obtain ⟨hfails, hstops⟩ := Edit.run_bind_of_error herror fun _ => Edit.collectLocals h
    exact ⟨hfails, hstops.trans hsame⟩
  rcases r.knows_cases h.name with hglobal | hroutine | hnew
  · exact Or.inl ⟨hglobal, hrefused _ (declareRoutine_of_global hglobal)⟩
  · exact Or.inr (Or.inl ⟨hroutine, hrefused _ hroutine.declareRoutine_eq⟩)
  · obtain ⟨hok, hleft⟩ := Edit.run_attempt_of_ok (·.declareRoutine h.signature)
      (.declaringSignature h.name h.signature.returnTy) (declareRoutine_of_new hnew)
    obtain ⟨hresult, hrest⟩ := Edit.run_bind_of_ok hok fun _ => Edit.collectLocals h
    rw [hleft] at hresult hrest
    -- the local names do not depend on the signatures
    have hlocals : ((r.addSignature h.signature).collectLocals h).result =
        (r.collectLocals h).result := by
      rw [result_collectLocals, result_collectLocals]
      rfl
    exact Or.inr (Or.inr ⟨hnew, hresult.trans hlocals, hrest⟩)

theorem ofLocalName_of_collectLocals {h : Header} {e : Violation}
    (he : (r.collectLocals h).result = .error e) : e.OfLocalName := by
  rw [result_collectLocals, localsOf_eq_error_iff] at he
  obtain ⟨k, ⟨name, symbol⟩, -, -, rfl⟩ := he
  exact Violation.ofLocalName_refusal ..

theorem collectsRoutine_of_refused {h : Header} {e : Violation} (he : e.OfRoutine)
    (hknown : r.Knows h.name)
    (hglobal : e = .routineTakesGlobal h.name ↔ r.globals.contains h.name = true)
    (hduplicate : e = .duplicateRoutine h.name ↔ r.NamesRoutine h.name) :
    r.CollectsRoutine h (.error e) r where
  global := by
    rw [Except.error.injEq]
    exact hglobal
  duplicate := by
    rw [Except.error.injEq]
    exact hduplicate
  fresh := fun hnew => absurd hknown hnew
  kinds := by
    rintro _ ⟨⟩
    exact Or.inl he
  unchanged := fun _ _ _ => rfl
  declared := by
    rintro _ ⟨⟩ hlocal
    exact absurd he hlocal.not_ofRoutine
  stuck := by
    rintro _ ⟨⟩ hlocal
    exact absurd he hlocal.not_ofRoutine

theorem collectsRoutine (r : Registry) (h : Header) :
    r.CollectsRoutine h ((Edit.collectSignatureAndLocals h).run r).1.result
      ((Edit.collectSignatureAndLocals h).run r).2 := by
  rcases r.run_collectSignatureAndLocals h with
    ⟨hglobal, hresult, hleft⟩ | ⟨hroutine, hresult, hleft⟩ | ⟨hnew, hresult, hleft⟩
  · rw [hresult, hleft]
    exact collectsRoutine_of_refused trivial (Or.inl hglobal) (iff_of_true rfl hglobal)
      (iff_of_false nofun fun hroutine => hroutine.not_global hglobal)
  · rw [hresult, hleft]
    exact collectsRoutine_of_refused trivial (Or.inr hroutine.routine)
      (iff_of_false nofun hroutine.not_global) (iff_of_true rfl hroutine)
  · have hadds := addsSignature_addSignature hnew
    rw [hresult, hleft]
    -- behind a new name only local names can be refused
    constructor
    case global =>
      exact iff_of_false (fun he => ofLocalName_of_collectLocals he) fun hglobal =>
        hnew (Or.inl hglobal)
    case duplicate =>
      exact iff_of_false (fun he => ofLocalName_of_collectLocals he) fun hroutine =>
        hnew (Or.inr hroutine.routine)
    case fresh => exact fun _ => rfl
    case kinds => exact fun e he => Or.inr (ofLocalName_of_collectLocals he)
    case unchanged =>
      intro e he hroutine
      exact absurd hroutine (ofLocalName_of_collectLocals he).not_ofRoutine
    case declared => exact fun _ _ _ => hadds
    case stuck =>
      intro e _ _ ops op s hop hname
      have hnames := hadds.namesRoutine.afterAll ops
      rw [← hname] at hnames ⊢
      exact hnames.result_edit hop

/-- Whatever the registry, a refused collection of globals leaves those in front of the first clash,
and a refused routine leaves either nothing or its signature. -/
theorem left_by_collections (r : Registry) (ds : List Declaration) (h : Header) :
    r.CollectsGlobals ds ((Edit.collectGlobals ds).run r).1.result
        ((Edit.collectGlobals ds).run r).2 ∧
      r.CollectsRoutine h ((Edit.collectSignatureAndLocals h).run r).1.result
        ((Edit.collectSignatureAndLocals h).run r).2 :=
  ⟨r.collectsGlobals ds, r.collectsRoutine h⟩

/-- The global in front of a refused one stays declared, the one behind it is not reached. -/
example : ((Edit.collectGlobals [⟨"x", .integer⟩, ⟨"echo", .string⟩, ⟨"y", .float⟩]).run
    initial).2.globals.keys = ["x"] := by
  rfl

end Registry

end StaticCheck
