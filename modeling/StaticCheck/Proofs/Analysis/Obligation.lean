import StaticCheck.Analysis
import StaticCheck.Proofs.Body.Events

/-!
# The obligations of a program

A program has to meet a list of obligations: it has a main procedure, the names that it declares are
new, and each event of its bodies fits what the body can see. `Program.obligations` lists them in
the order in which they fall due, and `Obligation.violation?` says by which violation a program
fails one. Both are told in terms of the text alone, of lists of names and declarations. No registry
is involved.

The order depends on the mode in one respect. A hoisted signature falls due before all bodies, and
every body sees it. In single-pass mode a signature falls due in front of the other obligations of
its routine, and only this routine and what follows it see it.

A list of obligations is settled by the violation of the first one that is not met (`settle`).
-/

namespace StaticCheck

/-- The declared names, in the order of their declarations. -/
def names (declarations : List Declaration) : List String :=
  declarations.map (·.name)

@[simp]
theorem names_append (xs ys : List Declaration) : names (xs ++ ys) = names xs ++ names ys :=
  List.map_append

/-- The type of the first declaration of `name`. -/
def declaredTy? (declarations : List Declaration) (name : String) : Option VarTy :=
  (declarations.find? fun d => decide (d.name = name)).map (·.ty)

/-- The first signature of the name `callee`. -/
def declaredSignature? (signatures : List Signature) (callee : String) : Option Signature :=
  signatures.find? fun s => decide (s.name = callee)

/-- What can be seen from a body. -/
structure View where
  locals : List Declaration
  globals : List Declaration
  signatures : List Signature

namespace View

/-- The declared type of a variable, of a local one first. -/
def ty? (v : View) (name : String) : Option VarTy :=
  (declaredTy? v.locals name).or (declaredTy? v.globals name)

/-- The signature of a routine. -/
def signature? (v : View) (callee : String) : Option Signature :=
  declaredSignature? v.signatures callee

/-- What an assignment receives from a value under this tag. -/
def received (v : View) : Tag → Except Violation Received
  | .integer => .ok (.typed VarTy.integer)
  | .string => .ok (.typed VarTy.string)
  | .boolean => .ok (.typed VarTy.boolean)
  | .var => .ok .var
  | .functionCall callee =>
    match v.signature? callee with
    | none => .error (.undefinedCallee callee)
    | some ⟨_, .none, _⟩ => .error (.procedureAsValue callee)
    | some ⟨_, .var ty, _⟩ => .ok (.typed ty)
  | .other _ => .ok .unknown

/-- The violation of an event: a target without a type goes before the tag on the value, and the tag
before the comparison of the types. -/
def violation? (v : View) : Event → Option Violation
  | .assign target tag =>
    match v.ty? target with
    | none => some (.undeclaredVariable target)
    | some expected =>
      match v.received tag with
      | .error e => some e
      | .ok received =>
        if received = .typed expected then none
        else some (.typeMismatch target expected received)
  | .call callee =>
    if (v.signature? callee).isSome then none else some (.undefinedCallee callee)

end View

/-- Something that a program has to meet. -/
inductive Obligation where
  /-- One of the items is a main procedure. -/
  | main (items : List Item)
  /-- A global has a name that is not taken. -/
  | global (taken : List String) (name : String)
  /-- A routine has a name that is neither that of a global nor taken by a routine. -/
  | routine (globals taken : List String) (name : String)
  /-- A parameter has a name that is neither that of a global nor of an earlier parameter. -/
  | parameter (globals earlier : List String) (owner name : String)
  /-- A local variable has a name that is neither that of a global nor of a parameter or an earlier
  local variable. -/
  | localVar (globals earlier : List String) (owner name : String)
  /-- An event of a body fits what the body can see. -/
  | event (view : View) (event : Event)

namespace Obligation

/-- The violation of a program that does not meet the obligation. -/
def violation? : Obligation → Option Violation
  | main items => if items.any (·.main?.isSome) then none else some .mainMissing
  | global taken name => if name ∈ taken then some (.duplicateGlobal name) else none
  | routine globals taken name =>
    if name ∈ globals then some (.routineTakesGlobal name)
    else if name ∈ taken then some (.duplicateRoutine name)
    else none
  | parameter globals earlier owner name =>
    if name ∈ globals then some (.parameterTakesGlobal owner name)
    else if name ∈ earlier then some (.duplicateParameter owner name)
    else none
  | localVar globals earlier owner name =>
    if name ∈ globals then some (.localTakesGlobal owner name)
    else if name ∈ earlier then some (.duplicateLocal owner name)
    else none
  | event view ev => view.violation? ev

/-- The obligation is met. -/
def Met (o : Obligation) : Prop :=
  o.violation? = none

@[simp]
theorem met_main_iff {items : List Item} :
    (main items).Met ↔ ∃ item ∈ items, item.main?.isSome = true := by
  simp [Met, violation?, Option.isSome_iff_ne_none]

@[simp]
theorem met_global_iff {taken : List String} {name : String} :
    (global taken name).Met ↔ name ∉ taken := by
  simp [Met, violation?]

private theorem ite_ite_eq_none_iff {first second : Prop} [Decidable first] [Decidable second]
    {d e : Violation} :
    (if first then some d else if second then some e else none) = none ↔ ¬first ∧ ¬second := by
  by_cases hfirst : first <;> simp [hfirst]

@[simp]
theorem met_routine_iff {globals taken : List String} {name : String} :
    (routine globals taken name).Met ↔ name ∉ globals ∧ name ∉ taken :=
  ite_ite_eq_none_iff

@[simp]
theorem met_parameter_iff {globals earlier : List String} {owner name : String} :
    (parameter globals earlier owner name).Met ↔ name ∉ globals ∧ name ∉ earlier :=
  ite_ite_eq_none_iff

@[simp]
theorem met_localVar_iff {globals earlier : List String} {owner name : String} :
    (localVar globals earlier owner name).Met ↔ name ∉ globals ∧ name ∉ earlier :=
  ite_ite_eq_none_iff

end Obligation

/-- A violation, or success if there is none. -/
def verdict : Option Violation → Except Violation Unit
  | some e => .error e
  | none => .ok ()

@[simp]
theorem verdict_eq_ok_iff {e? : Option Violation} : verdict e? = .ok () ↔ e? = none := by
  cases e? <;> simp [verdict]

@[simp]
theorem verdict_eq_error_iff {e? : Option Violation} {e : Violation} :
    verdict e? = .error e ↔ e? = some e := by
  cases e? <;> simp [verdict]

/-- The violation of the first obligation that is not met, or success. -/
def settle (obligations : List Obligation) : Except Violation Unit :=
  verdict (obligations.findSome? Obligation.violation?)

/-- `e` is the violation of an obligation that is not met, while all those in front of it are. -/
def FirstViolation (obligations : List Obligation) (e : Violation) : Prop :=
  ∃ before o after, obligations = before ++ o :: after ∧ (∀ b ∈ before, b.Met) ∧
    o.violation? = some e

@[simp]
theorem settle_nil : settle [] = .ok () := rfl

@[simp]
theorem settle_append (xs ys : List Obligation) :
    settle (xs ++ ys) = settle xs >>= fun _ => settle ys := by
  unfold settle
  rw [List.findSome?_append]
  cases xs.findSome? Obligation.violation? <;> simp [verdict]

theorem settle_cons (o : Obligation) (os : List Obligation) :
    settle (o :: os) = settle [o] >>= fun _ => settle os :=
  settle_append [o] os

/-- An obligation that is met leaves the verdict to those behind it. -/
theorem settle_cons_of_met {o : Obligation} (h : o.Met) (os : List Obligation) :
    settle (o :: os) = settle os := by
  have hnone : o.violation? = none := h
  simp [settle, hnone]

@[simp]
theorem settle_singleton (o : Obligation) : settle [o] = verdict o.violation? := by
  simp [settle]

/-- One refusal settles an obligation that is refused for the same reason. -/
theorem settle_refusal {σ : Type} {o : Obligation} {reason : Prop} [Decidable reason]
    {e : Violation} {b : Bool} (x : σ) (ho : o.violation? = if reason then some e else none)
    (hb : b = true ↔ reason) :
    (if b = true then .error e else .ok x) = (settle [o]).map fun _ => x := by
  rw [settle_singleton, ho]
  by_cases h : reason <;> simp [hb, h, verdict]

/-- Two refusals in a row settle an obligation that is refused for the same two reasons. -/
theorem settle_refusals {σ : Type} {o : Obligation} {first second : Prop} [Decidable first]
    [Decidable second] {d e : Violation} {b c : Bool} (x : σ)
    (ho : o.violation? = if first then some d else if second then some e else none)
    (hb : b = true ↔ first) (hc : c = true ↔ second) :
    (if b = true then .error d else if c = true then .error e else .ok x) =
      (settle [o]).map fun _ => x := by
  rw [settle_singleton, ho]
  by_cases hfirst : first
  · simp [hb, hfirst, verdict]
  · by_cases hsecond : second <;> simp [hb, hc, hfirst, hsecond, verdict]

@[simp]
theorem settle_eq_ok_iff {os : List Obligation} : settle os = .ok () ↔ ∀ o ∈ os, o.Met := by
  simp [settle, Obligation.Met]

theorem settle_eq_error_iff {os : List Obligation} {e : Violation} :
    settle os = .error e ↔ FirstViolation os e := by
  unfold settle
  rw [verdict_eq_error_iff, List.findSome?_eq_some_iff]
  constructor
  · intro h
    obtain ⟨before, o, after, hos, hviolated, hmet⟩ := h
    exact ⟨before, o, after, hos, hmet, hviolated⟩
  · intro h
    obtain ⟨before, o, after, hos, hmet, hviolated⟩ := h
    exact ⟨before, o, after, hos, hviolated, hmet⟩

/-- What is asked of each member of a list in turn, given the members in front of it; `front` are
those in front of the list. -/
def inTurn {α : Type} (ask : List α → α → List Obligation) (front : List α) :
    List α → List Obligation
  | [] => []
  | a :: as => ask front a ++ inTurn ask (front ++ [a]) as

theorem mem_inTurn_iff {α : Type} {ask : List α → α → List Obligation} {o : Obligation} :
    ∀ {front as : List α}, o ∈ inTurn ask front as ↔
      ∃ before a after, as = before ++ a :: after ∧ o ∈ ask (front ++ before) a := by
  intro front as
  induction as generalizing front with
  | nil =>
    refine iff_of_false List.not_mem_nil ?_
    rintro ⟨before, a, after, has, -⟩
    exact absurd has.symm (List.append_ne_nil_of_right_ne_nil _ (List.cons_ne_nil _ _))
  | cons b bs ih =>
    rw [inTurn, List.mem_append, ih]
    -- the members in front of `b` are `front`, and those in front of the others end with `b`
    constructor
    · rintro (hb | ⟨before, a, after, rfl, ho⟩)
      · exact ⟨[], b, bs, rfl, by rwa [List.append_nil]⟩
      · exact ⟨b :: before, a, after, rfl, by rwa [List.append_cons]⟩
    · rintro ⟨before, a, after, has, ho⟩
      cases before with
      | nil =>
        cases has
        exact Or.inl (by rwa [List.append_nil] at ho)
      | cons c before =>
        cases has
        exact Or.inr ⟨before, a, after, rfl, by rwa [List.append_cons] at ho⟩

theorem inTurn_append {α : Type} (ask : List α → α → List Obligation) {front xs ys : List α} :
    inTurn ask front (xs ++ ys) = inTurn ask front xs ++ inTurn ask (front ++ xs) ys := by
  induction xs generalizing front with
  | nil => simp [inTurn]
  | cons x xs ih => simp [inTurn, ih]

theorem inTurn_map {α β : Type} (key : α → β) (ask : List β → β → List Obligation)
    {front as : List α} :
    inTurn ask (front.map key) (as.map key) =
      inTurn (fun earlier a => ask (earlier.map key) (key a)) front as := by
  induction as generalizing front with
  | nil => rfl
  | cons a as ih => simp [inTurn, ← ih]

/-- Where the members in front do not count, what is asked in turn is asked of each by itself. -/
theorem inTurn_eq_flatMap {α : Type} (ask : α → List Obligation) {front as : List α} :
    inTurn (fun _ a => ask a) front as = as.flatMap ask := by
  induction as generalizing front with
  | nil => rfl
  | cons a as ih => simp [inTurn, ih]

private theorem foldlM_settle_from {α σ : Type} {step : σ → α → Except Violation σ}
    {state : List α → σ} {ask : List α → α → List Obligation} {Known : List α → Prop}
    (hstep : ∀ front a, Known front →
      step (state front) a = (settle (ask front a)).map fun _ => state (front ++ [a]))
    (hknown : ∀ front a, Known front → (∀ o ∈ ask front a, o.Met) → Known (front ++ [a])) :
    ∀ {as front : List α}, Known front →
      as.foldlM step (state front) =
        (settle (inTurn ask front as)).map fun _ => state (front ++ as) := by
  intro as
  induction as with
  | nil =>
    intro front _
    rw [List.append_nil]
    rfl
  | cons a as ih =>
    intro front h
    rw [List.foldlM_cons, hstep front a h, inTurn, settle_append]
    -- the rest starts from the state behind `a`, and only if `a` met its obligations
    cases hset : settle (ask front a) with
    | error e => rfl
    | ok u =>
      have hmet : ∀ o ∈ ask front a, o.Met := settle_eq_ok_iff.mp hset
      simpa using ih (hknown front a h hmet)

/-- A fold whose steps settle what is asked of the members settles what is asked of the list.
`state front` is the state behind the members `front`, and `Known front` is what their obligations
have established. -/
theorem foldlM_settle {α σ : Type} {step : σ → α → Except Violation σ} (state : List α → σ)
    {ask : List α → α → List Obligation} (Known : List α → Prop)
    (hstep : ∀ front a, Known front →
      step (state front) a = (settle (ask front a)).map fun _ => state (front ++ [a]))
    (hknown : ∀ front a, Known front → (∀ o ∈ ask front a, o.Met) → Known (front ++ [a]))
    (as : List α) (hstart : Known []) :
    as.foldlM step (state []) = (settle (inTurn ask [] as)).map fun _ => state as :=
  foldlM_settle_from hstep hknown hstart

/-! ## The obligations in their order -/

/-- The names that are taken before any declaration. -/
def builtinNames : List String :=
  builtins.map (·.name)

theorem map_name_signatures (routines : List Routine) :
    (builtins ++ routines.map (·.signature)).map (·.name) =
      builtinNames ++ routines.map (·.name) := by
  rw [List.map_append, List.map_map]
  rfl

namespace Header

/-- The parameters have names that are new. -/
def parameterObligations (h : Header) (globals : List Declaration) : List Obligation :=
  inTurn (fun earlier d => [.parameter (names globals) (names earlier) h.name d.name]) []
    h.parameters

/-- The local variables have names that are new. -/
def localObligations (h : Header) (globals : List Declaration) : List Obligation :=
  inTurn (fun earlier d => [.localVar (names globals) (names (h.parameters ++ earlier)) h.name
    d.name]) [] h.locals

/-- The parameters fall due before the local variables. -/
def obligations (h : Header) (globals : List Declaration) : List Obligation :=
  h.parameterObligations globals ++ h.localObligations globals

end Header

/-- The events of a body fit what it can see. -/
def View.obligations (v : View) (body : List Stmt) : List Obligation :=
  (Stmt.eventsEach body).map (.event v)

namespace Item

/-- The local names of the body. -/
def locals : Item → List Declaration
  | main _ => []
  | routine r => r.parameters ++ r.locals

/-- The statements of the item. -/
def body : Item → List Stmt
  | main m => m.body
  | routine r => r.body

@[simp]
theorem filterMap_routine?_main (m : MainProc) (items : List Item) :
    (main m :: items).filterMap Item.routine? = items.filterMap Item.routine? := rfl

@[simp]
theorem filterMap_routine?_routine (r : Routine) (items : List Item) :
    (routine r :: items).filterMap Item.routine? = r :: items.filterMap Item.routine? := rfl

theorem mem_filterMap_routine?_iff {items : List Item} {routine : Routine} :
    routine ∈ items.filterMap Item.routine? ↔ .routine routine ∈ items := by
  rw [List.mem_filterMap]
  constructor
  · intro h
    obtain ⟨item, hitem, hroutine⟩ := h
    cases item with
    | main main => cases hroutine
    | routine found =>
      cases hroutine
      exact hitem
  · intro h
    exact ⟨_, h, rfl⟩

end Item

namespace Program

/-- The declarations of the first main procedure. -/
def globals (p : Program) : List Declaration :=
  (p.main?.map (·.declarations)).getD []

/-- The globals have names that are new. -/
def globalObligations (p : Program) : List Obligation :=
  inTurn (fun earlier d => [.global (builtinNames ++ names earlier) d.name]) [] p.globals

/-- A routine behind the routines `earlier` has a name that is new. -/
def routineObligation (p : Program) (earlier : List Routine) (routine : Routine) : Obligation :=
  .routine (names p.globals) (builtinNames ++ earlier.map (·.name)) routine.name

/-- What falls due between the globals and the items. -/
def hoistedObligations (p : Program) : Mode → List Obligation
  | .hoisting => inTurn (fun earlier routine => [p.routineObligation earlier routine]) [] p.routines
  | .singlePass => []

/-- The routines that are declared once the items `reached` are. -/
def declared (p : Program) (mode : Mode) (reached : List Item) : List Routine :=
  match mode with
  | .hoisting => p.routines
  | .singlePass => reached.filterMap Item.routine?

/-- What a body can see that has these local names and stands in the last of the items `reached`. -/
def view (p : Program) (mode : Mode) (locals : List Declaration) (reached : List Item) : View where
  locals := locals
  globals := p.globals
  signatures := builtins ++ (p.declared mode reached).map (·.signature)

/-- What falls due when a routine is reached and its signature may not have been hoisted. -/
def reachedObligations (p : Program) (mode : Mode) (earlier : List Item) (routine : Routine) :
    List Obligation :=
  match mode with
  | .hoisting => []
  | .singlePass => [p.routineObligation (earlier.filterMap Item.routine?) routine]

/-- What falls due with an item in front of its body. -/
def entryObligations (p : Program) (mode : Mode) (earlier : List Item) : Item → List Obligation
  | .main _ => []
  | .routine routine =>
    p.reachedObligations mode earlier routine ++ routine.obligations p.globals

/-- What falls due with an item behind the items `earlier`. -/
def itemObligations (p : Program) (mode : Mode) (earlier : List Item) (item : Item) :
    List Obligation :=
  p.entryObligations mode earlier item ++
    (p.view mode item.locals (earlier ++ [item])).obligations item.body

/-- All that a program has to meet, in the order in which it falls due. -/
def obligations (p : Program) (mode : Mode) : List Obligation :=
  .main p.items :: p.globalObligations ++ p.hoistedObligations mode ++
    inTurn (p.itemObligations mode) [] p.items

/-- What falls due in front of the items. -/
def openingObligations (p : Program) (mode : Mode) : List Obligation :=
  .main p.items :: p.globalObligations ++ p.hoistedObligations mode

variable {p : Program} {mode : Mode}

theorem obligations_eq_append (p : Program) (mode : Mode) :
    p.obligations mode =
      p.openingObligations mode ++ inTurn (p.itemObligations mode) [] p.items := rfl

theorem mem_obligations_iff {o : Obligation} :
    o ∈ p.obligations mode ↔
      o = .main p.items ∨ o ∈ p.globalObligations ∨ o ∈ p.hoistedObligations mode ∨
        ∃ before item after, p.items = before ++ item :: after ∧
          o ∈ p.itemObligations mode before item := by
  have hitems : o ∈ inTurn (p.itemObligations mode) [] p.items ↔
      ∃ before item after, p.items = before ++ item :: after ∧
        o ∈ p.itemObligations mode before item := mem_inTurn_iff
  unfold obligations
  rw [List.mem_append, List.mem_append, List.mem_cons, hitems, or_assoc, or_assoc]

/-- A program meets all its obligations if it meets those of each phase, the last of them item by
item. -/
theorem forall_met_obligations_iff :
    (∀ o ∈ p.obligations mode, o.Met) ↔
      (Obligation.main p.items).Met ∧ (∀ o ∈ p.globalObligations, o.Met) ∧
        (∀ o ∈ p.hoistedObligations mode, o.Met) ∧
        ∀ before item after, p.items = before ++ item :: after →
          ∀ o ∈ p.itemObligations mode before item, o.Met := by
  constructor
  · intro h
    refine ⟨h _ (mem_obligations_iff.mpr (Or.inl rfl)), fun o ho => ?_, fun o ho => ?_, ?_⟩
    · exact h o (mem_obligations_iff.mpr (Or.inr (Or.inl ho)))
    · exact h o (mem_obligations_iff.mpr (Or.inr (Or.inr (Or.inl ho))))
    · intro before item after hsplit o ho
      exact h o (mem_obligations_iff.mpr (Or.inr (Or.inr (Or.inr
        ⟨before, item, after, hsplit, ho⟩))))
  · intro h o ho
    obtain ⟨hmain, hglobals, hhoisted, hitems⟩ := h
    rcases mem_obligations_iff.mp ho with heq | hglobal | hsignature | hitem
    · rw [heq]
      exact hmain
    · exact hglobals o hglobal
    · exact hhoisted o hsignature
    · obtain ⟨before, item, after, hsplit, hmem⟩ := hitem
      exact hitems before item after hsplit o hmem

end Program

end StaticCheck
