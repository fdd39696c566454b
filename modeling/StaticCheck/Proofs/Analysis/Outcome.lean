import StaticCheck.Proofs.Analysis.Distinct
import StaticCheck.Proofs.Analysis.Listing

/-!
# The outcome of an analysis

An analysis settles the obligations of its program, and if they are all met it answers the registry
that is written out by the text: `Program.result_analyze`. So both modes answer the same registry
whenever they answer one, and a violation is that of the first obligation that is not met.

The proof follows the edits. `Edit.Follows x r os a r₁` says that `x`, run in `r`, settles `os`, and
that it has the value `a` and leaves `r₁` if they are met. It composes along `>>=` and along lists,
where the second edit may rely on what the obligations of the first one have established: names
that are distinct, so that every look-up in a body answers by the text (`Registry.Shows`).
-/

namespace StaticCheck

namespace Edit

variable {α β : Type}

/-- The value of an edit and the registry that it leaves, or its violation. -/
def outcome (x : Edit α) (r : Registry) : Except Violation (α × Registry) :=
  (x.run r).1.result.map fun a => (a, (x.run r).2)

@[simp]
theorem outcome_bind (x : Edit α) (f : α → Edit β) (r : Registry) :
    (x >>= f).outcome r = x.outcome r >>= fun q => (f q.1).outcome q.2 := by
  unfold outcome
  rw [run_bind]
  obtain ⟨⟨result, log⟩, r₁⟩ := x.run r
  cases result with
  | error e => rfl
  | ok a =>
    show _ = ((f a).run r₁).1.result.map fun b => (b, ((f a).run r₁).2)
    rfl

@[simp]
theorem outcome_read (f : Registry → Logged Violation α) (r : Registry) :
    (read f).outcome r = (f r).result.map fun a => (a, r) := by
  simp [outcome]

/-- Run in `r`, the edit settles `obligations`; if they are met, its value is `a` and it leaves
`r₁`. -/
def Follows (x : Edit α) (r : Registry) (obligations : List Obligation) (a : α) (r₁ : Registry) :
    Prop :=
  x.outcome r = (settle obligations).map fun _ => (a, r₁)

theorem follows_pure (a : α) (r : Registry) : (pure a : Edit α).Follows r [] a r := by
  simp [Follows, outcome]

theorem follows_change (f : Registry → Registry) (r : Registry) :
    (change f).Follows r [] () (f r) := by
  simp [Follows, outcome]

theorem follows_read {f : Registry → Logged Violation α} {r : Registry} {os : List Obligation}
    {a : α} (h : (f r).result = (settle os).map fun _ => a) : (read f).Follows r os a r := by
  unfold Follows
  rw [outcome_read, h]
  cases settle os <;> simp

theorem follows_emit (record : Registry → Record) (r : Registry) :
    (read fun r => .emit (record r)).Follows r [] () r := by
  simp [Follows]

theorem follows_attempt {f : Registry → Except Violation Registry} {done : Record}
    {r r₁ : Registry} {os : List Obligation} (h : f r = (settle os).map fun _ => r₁) :
    (attempt f done).Follows r os () r₁ := by
  unfold Follows outcome
  rw [run_attempt, h]
  cases settle os <;> rfl

/-- The second edit may rely on the obligations of the first. -/
theorem Follows.bind {x : Edit α} {f : α → Edit β} {r r₁ r₂ : Registry}
    {os os₁ : List Obligation} {a : α} {b : β} (hx : x.Follows r os a r₁)
    (hf : (∀ o ∈ os, o.Met) → (f a).Follows r₁ os₁ b r₂) :
    (x >>= f).Follows r (os ++ os₁) b r₂ := by
  unfold Follows at hx hf ⊢
  rw [outcome_bind, hx, settle_append]
  cases hset : settle os with
  | error e => rfl
  | ok u => exact hf (settle_eq_ok_iff.mp hset)

/-- A record behind an edit asks for nothing. -/
theorem Follows.emit {x : Edit α} {r r₁ : Registry} {os : List Obligation} {a : α}
    (hx : x.Follows r os a r₁) (record : Registry → Record) :
    (x >>= fun _ => read fun r => .emit (record r)).Follows r os () r₁ := by
  have hall := hx.bind (f := fun _ => read fun r => .emit (record r))
    fun _ => follows_emit record r₁
  rwa [List.append_nil] at hall

/-- A value that is worked out behind an edit asks for nothing either. -/
theorem Follows.map {x : Edit α} {r r₁ : Registry} {os : List Obligation} {a : α}
    (hx : x.Follows r os a r₁) (g : α → β) :
    (x >>= fun a => pure (g a)).Follows r os (g a) r₁ := by
  have hall := hx.bind (f := fun a => pure (g a)) fun _ => follows_pure (g a) r₁
  rwa [List.append_nil] at hall

/-- An edit that follows its obligations and has a value found them all met. -/
theorem Follows.of_ok {x : Edit α} {r r₁ r₂ : Registry} {os : List Obligation} {a b : α}
    (hx : x.Follows r os a r₁) (hok : x.outcome r = .ok (b, r₂)) :
    (∀ o ∈ os, o.Met) ∧ a = b ∧ r₁ = r₂ := by
  unfold Follows at hx
  rw [hx] at hok
  cases hset : settle os with
  | error e =>
    rw [hset] at hok
    cases hok
  | ok u =>
    rw [hset] at hok
    cases hok
    exact ⟨settle_eq_ok_iff.mp hset, rfl, rfl⟩

theorem outcome_forM (f : α → Edit Unit) :
    ∀ (as : List α) (r : Registry), (as.forM f).outcome r =
      (as.foldlM (fun r a => ((f a).outcome r).map Prod.snd) r).map fun r₁ => ((), r₁) := by
  intro as
  induction as with
  | nil => intro r; rfl
  | cons a as ih =>
    intro r
    rw [show (a :: as).forM f = f a >>= fun _ => as.forM f from rfl, outcome_bind,
      List.foldlM_cons]
    cases (f a).outcome r with
    | error e => rfl
    | ok q => exact ih q.2

/-- A list of edits settles what is asked of its members in turn. `state front` is the registry
behind the members `front`, and `Known front` is what their obligations have established. -/
theorem follows_forM {f : α → Edit Unit} (state : List α → Registry)
    {ask : List α → α → List Obligation} (Known : List α → Prop)
    (hstep : ∀ front a, Known front →
      (f a).Follows (state front) (ask front a) () (state (front ++ [a])))
    (hknown : ∀ front a, Known front → (∀ o ∈ ask front a, o.Met) → Known (front ++ [a]))
    (as : List α) (hstart : Known []) :
    (as.forM f).Follows (state []) (inTurn ask [] as) () (state as) := by
  have hfold : as.foldlM (fun r a => ((f a).outcome r).map Prod.snd) (state []) =
      (settle (inTurn ask [] as)).map fun _ => state as := by
    refine foldlM_settle state Known (fun front a h => ?_) hknown as hstart
    rw [show (f a).outcome (state front) = _ from hstep front a h]
    cases settle (ask front a) <;> rfl
  unfold Follows
  rw [outcome_forM, hfold]
  cases settle (inTurn ask [] as) <;> rfl

end Edit

/-! ## Bodies -/

namespace Registry

/-- The registry answers the look-ups of a body in this scope by the view. -/
structure Shows (r : Registry) (scope : Scope) (v : View) : Prop where
  ty : ∀ name, r.ty? scope name = v.ty? name
  signature : ∀ callee, r.signature? callee = v.signature? callee

variable {r : Registry} {scope : Scope} {v : View}

theorem Shows.received_eq (h : r.Shows scope v) (tag : Tag) : r.received tag = v.received tag := by
  cases tag with
  | functionCall callee =>
    unfold received View.received
    dsimp only
    rw [h.signature callee]
    cases v.signature? callee with
    | none => rfl
    | some s =>
      obtain ⟨name, returnTy, parameters⟩ := s
      cases returnTy <;> rfl
  | integer => rfl
  | string => rfl
  | boolean => rfl
  | var => rfl
  | other raw => rfl

theorem result_checkCall (r : Registry) (callee : String) :
    (r.checkCall callee).result =
      if (r.signature? callee).isSome then .ok () else .error (.undefinedCallee callee) := by
  have hknown : r.signatures.contains callee = (r.signature? callee).isSome := rfl
  unfold checkCall
  rw [hknown]
  cases (r.signature? callee).isSome <;> simp

theorem result_checkAssignment (r : Registry) (scope : Scope) (target : String) (tag : Tag) :
    (r.checkAssignment scope target tag).result =
      match r.ty? scope target with
      | none => .error (.undeclaredVariable target)
      | some expected =>
        match r.received tag with
        | .error e => .error e
        | .ok received =>
          if received = .typed expected then .ok ()
          else .error (.typeMismatch target expected received) := by
  unfold checkAssignment resolve
  -- the target goes before the tag, and the tag before the comparison
  cases r.ty? scope target with
  | none => simp
  | some expected =>
    cases r.received tag with
    | error e => simp
    | ok received => by_cases hfits : received = .typed expected <;> simp [hfits]

theorem Shows.result_check (h : r.Shows scope v) (ev : Event) :
    (r.check scope ev).result = settle [.event v ev] := by
  rw [settle_singleton]
  show _ = verdict (v.violation? ev)
  cases ev with
  | call callee =>
    show (r.checkCall callee).result = _
    rw [result_checkCall, h.signature callee, View.violation?]
    cases (v.signature? callee).isSome <;> rfl
  | assign target tag =>
    show (r.checkAssignment scope target tag).result = _
    rw [result_checkAssignment, h.ty target, h.received_eq tag, View.violation?]
    cases v.ty? target with
    | none => rfl
    | some expected =>
      cases v.received tag with
      | error e => rfl
      | ok received =>
        dsimp only
        split <;> rfl

/-- The check of a body settles its obligations. -/
theorem Shows.result_checkBody (h : r.Shows scope v) (body : List Stmt) :
    (r.checkBody scope body).result = settle (v.obligations body) := by
  rw [checkBody_eq]
  unfold View.obligations
  induction Stmt.eventsEach body with
  | nil => rfl
  | cons ev events ih =>
    rw [checkEvents_cons, Logged.result_bind, h.result_check ev, ih, List.map_cons]
    exact (settle_cons _ _).symm

theorem Shows.follows_checkBody (h : r.Shows scope v) (body : List Stmt) :
    (Edit.read fun r => r.checkBody scope body).Follows r (v.obligations body) () r := by
  refine Edit.follows_read ?_
  rw [h.result_checkBody body]
  cases settle (v.obligations body) <;> rfl

end Registry

/-! ## Declarations -/

theorem builtinNames_nodup : builtinNames.Nodup := by decide

/-- A new name behind distinct ones leaves them distinct. -/
theorem nodup_concat {xs : List String} {x : String} (hxs : xs.Nodup) (hx : x ∉ xs) :
    (xs ++ [x]).Nodup := by
  rw [List.nodup_append]
  refine ⟨hxs, List.pairwise_singleton _ x, ?_⟩
  intro a ha b hb
  rw [List.mem_singleton.mp hb]
  exact fun heq => hx (heq ▸ ha)

namespace Program

variable {p : Program} {mode : Mode}

theorem nodup_globals (hmet : ∀ o ∈ p.globalObligations, o.Met) : (names p.globals).Nodup :=
  (forall_met_globalObligations_iff.mp hmet).1

theorem known_routines {front : List Routine} {routine : Routine}
    (hfront : (builtinNames ++ front.map (·.name)).Nodup)
    (hmet : (p.routineObligation front routine).Met) :
    (builtinNames ++ (front ++ [routine]).map (·.name)).Nodup := by
  have hnew := Obligation.met_routine_iff.mp hmet
  rw [List.map_append, List.map_singleton, ← List.append_assoc]
  exact nodup_concat hfront hnew.2

theorem nodup_hoisted (hmet : ∀ o ∈ p.hoistedObligations .hoisting, o.Met) :
    (builtinNames ++ p.routines.map (·.name)).Nodup := by
  obtain ⟨hdistinct, hfree⟩ := forall_met_hoistedObligations_iff.mp hmet
  refine (nodup_append_map_iff builtinNames_nodup).mpr ⟨hdistinct, fun routine hroutine => ?_⟩
  exact (not_mem_append_iff.mp (hfree routine hroutine)).2

theorem follows_collectGlobals :
    (Edit.collectGlobals p.globals).Follows .initial p.globalObligations ()
      (.listing p.globals [] []) := by
  have hforM : (p.globals.forM Edit.declareGlobal).Follows .initial p.globalObligations ()
      (.listing p.globals [] []) :=
    Edit.follows_forM (fun front => Registry.listing front [] []) (fun _ => True)
      (fun front d _ => Edit.follows_attempt (Registry.declareGlobal_listing d))
      (fun _ _ _ _ => trivial) p.globals trivial
  exact hforM.emit fun r => .globals r.globals

theorem follows_hoist :
    (hoist mode p.routines).Follows (.listing p.globals [] []) (p.hoistedObligations mode) ()
      (.listing p.globals (p.declared mode []) []) := by
  cases mode with
  | singlePass => rfl
  | hoisting =>
    have hforM : (p.routines.forM fun routine => Edit.declareSignature routine.signature).Follows
        (.listing p.globals [] []) (p.hoistedObligations .hoisting) ()
        (.listing p.globals p.routines []) :=
      Edit.follows_forM (fun front => Registry.listing p.globals front []) (fun _ => True)
        (fun front routine _ => Edit.follows_attempt (Registry.declareRoutine_listing routine))
        (fun _ _ _ _ => trivial) p.routines trivial
    exact hforM.emit fun r => .signatures r.signatures.keys

end Program

/-! ## Items -/

namespace Item

/-- The check of an item up to its body, with the scope of the body. -/
def entry (mode : Mode) : Item → Edit Scope
  | main _ => return .outside
  | routine r => do
    let table ← enter mode r.toHeader
    return .within r.name table

/-- What is left to do behind the body of an item. -/
def leave : Item → Scope → Edit Unit
  | routine r, .within _ table => .insertLocals r.name table
  | _, _ => pure ()

/-- The scope of the body as the text tells it. -/
def scope : Item → Scope
  | main _ => .outside
  | routine r => .within r.name r.table

end Item

theorem checkItem_eq (mode : Mode) (item : Item) :
    checkItem mode item = item.entry mode >>= fun scope =>
      (Edit.read fun r => r.checkBody scope item.body) >>= fun _ => item.leave scope := by
  cases item with
  | main m =>
    unfold Item.entry Item.leave
    rw [pure_bind, bind_pure_unit]
    rfl
  | routine r =>
    unfold Item.entry
    rw [bind_assoc]
    simp only [pure_bind]
    rfl

namespace Program

variable {p : Program} {mode : Mode}

/-- The registry behind the items `front`. -/
def registryBehind (p : Program) (mode : Mode) (front : List Item) : Registry :=
  .listing p.globals (p.declared mode front) (front.filterMap Item.routine?)

/-- Behind the items `front` no two routines that are declared have the same name. -/
def DistinctBehind (p : Program) (mode : Mode) (front : List Item) : Prop :=
  (builtinNames ++ (p.declared mode front).map (·.name)).Nodup

@[simp]
theorem declared_concat_main (p : Program) (mode : Mode) (front : List Item) (main : MainProc) :
    p.declared mode (front ++ [.main main]) = p.declared mode front := by
  cases mode with
  | hoisting => rfl
  | singlePass => simp [declared]

@[simp]
theorem registryBehind_concat_main (front : List Item) (main : MainProc) :
    p.registryBehind mode (front ++ [.main main]) = p.registryBehind mode front := by
  simp [registryBehind]

theorem registryBehind_concat_routine (front : List Item) (routine : Routine) :
    p.registryBehind mode (front ++ [.routine routine]) =
      (Registry.listing p.globals (p.declared mode (front ++ [.routine routine]))
        (front.filterMap Item.routine?)).insertLocals routine.name routine.table := by
  simp [Registry.insertLocals_listing, registryBehind]

/-- The registry in which the body of an item behind the items `front` is checked. -/
def registryInside (p : Program) (mode : Mode) (front : List Item) (item : Item) : Registry :=
  .listing p.globals (p.declared mode (front ++ [item])) (front.filterMap Item.routine?)

/-- The signature of a routine is declared on the way into it, unless it was hoisted. -/
theorem follows_enter (front : List Item) (routine : Routine) :
    (enter mode routine.toHeader).Follows (p.registryBehind mode front)
      (p.entryObligations mode front (.routine routine)) routine.table
      (p.registryInside mode front (.routine routine)) := by
  have hcollect : ∀ routines : List Routine, (Edit.collectLocals routine.toHeader).Follows
      (.listing p.globals routines (front.filterMap Item.routine?))
      (routine.obligations p.globals) routine.table
      (.listing p.globals routines (front.filterMap Item.routine?)) := by
    intro routines
    refine Edit.follows_read ?_
    unfold Registry.collectLocals
    rw [Logged.result_bind, show Logged.result (liftM _ : Logged Violation LocalTable) = _ from
      Registry.localsOf_listing routine.toHeader]
    cases settle (routine.obligations p.globals) <;> rfl
  cases mode with
  | hoisting => exact hcollect p.routines
  | singlePass =>
    -- here the routine becomes the last of those that are declared
    have hdeclared : p.declared .singlePass (front ++ [.routine routine]) =
        front.filterMap Item.routine? ++ [routine] := by
      simp [declared]
    unfold registryInside
    rw [hdeclared]
    exact (Edit.follows_attempt (Registry.declareRoutine_listing routine)).bind
      fun _ => hcollect _

theorem follows_entry (front : List Item) (item : Item) :
    (item.entry mode).Follows (p.registryBehind mode front) (p.entryObligations mode front item)
      item.scope (p.registryInside mode front item) := by
  cases item with
  | main main =>
    unfold registryInside
    rw [declared_concat_main]
    exact Edit.follows_pure _ _
  | routine routine =>
    exact (follows_enter front routine).map (Scope.within routine.name)

theorem follows_leave (front : List Item) (item : Item) :
    (item.leave item.scope).Follows (p.registryInside mode front item) [] ()
      (p.registryBehind mode (front ++ [item])) := by
  cases item with
  | main main =>
    unfold registryInside
    rw [registryBehind_concat_main, declared_concat_main]
    exact Edit.follows_pure _ _
  | routine routine =>
    rw [registryBehind_concat_routine]
    exact Edit.follows_change _ _

theorem distinctBehind_concat {front : List Item} {item : Item} (h : p.DistinctBehind mode front)
    (hmet : ∀ o ∈ p.entryObligations mode front item, o.Met) :
    p.DistinctBehind mode (front ++ [item]) := by
  cases item with
  | main main =>
    unfold DistinctBehind
    rw [declared_concat_main]
    exact h
  | routine routine =>
    cases mode with
    | hoisting => exact h
    | singlePass =>
      unfold DistinctBehind declared at h ⊢
      rw [List.filterMap_append, Item.filterMap_routine?_routine]
      exact known_routines h (hmet _ (List.mem_append_left _ (List.mem_singleton_self _)))

/-- The scope of a body knows the local names of its item. -/
theorem ty?_scope {front : List Item} {item : Item}
    (hmet : ∀ o ∈ p.entryObligations mode front item, o.Met) (name : String) :
    item.scope.ty? name = declaredTy? item.locals name := by
  cases item with
  | main main => rfl
  | routine routine =>
    have hheader : ∀ o ∈ routine.obligations p.globals, o.Met := by
      intro o ho
      exact hmet o (List.mem_append_right _ ho)
    exact ty?_localListing (Header.forall_met_obligations_iff.mp hheader).1 name

/-- Where names are distinct, the registry answers a body by what the text shows it. -/
theorem shows_inside (hglobals : (names p.globals).Nodup) {front : List Item} {item : Item}
    (h : p.DistinctBehind mode front) (hmet : ∀ o ∈ p.entryObligations mode front item, o.Met) :
    (p.registryInside mode front item).Shows item.scope
      (p.view mode item.locals (front ++ [item])) where
  ty := by
    intro name
    unfold Registry.ty? View.ty? registryInside
    rw [ty?_scope hmet name, Registry.global?_listing hglobals]
    show _ = (declaredTy? item.locals name).or (declaredTy? p.globals name)
    cases declaredTy? item.locals name <;> rfl
  signature := fun _ => Registry.signature?_listing (distinctBehind_concat h hmet)

/-- The check of an item settles what falls due with it. -/
theorem follows_checkItem (hglobals : (names p.globals).Nodup) {front : List Item} {item : Item}
    (h : p.DistinctBehind mode front) :
    (checkItem mode item).Follows (p.registryBehind mode front) (p.itemObligations mode front item)
      () (p.registryBehind mode (front ++ [item])) := by
  rw [checkItem_eq]
  refine (follows_entry front item).bind fun hmet => ?_
  -- the body may rely on names that are distinct, since the declarations are checked before it
  have hshows := shows_inside hglobals h hmet
  have hall := (hshows.follows_checkBody item.body).bind (f := fun _ => item.leave item.scope)
    fun _ => follows_leave front item
  rwa [List.append_nil] at hall

/-! ## The analysis -/

/-- The main procedure that is required is the first one. -/
theorem follows_requireMain (p : Program) (r : Registry) :
    (Edit.read fun _ => p.requireMain).Follows r [.main p.items] (p.main?.getD ⟨[], []⟩) r := by
  refine Edit.follows_read ?_
  unfold requireMain
  rw [settle_singleton]
  cases hmain : p.main? with
  | none =>
    have hnone : ∀ item ∈ p.items, item.main? = none := List.findSome?_eq_none_iff.mp hmain
    have hviolated : (Obligation.main p.items).violation? = some .mainMissing := by
      refine if_neg ?_
      rw [List.any_eq_true]
      rintro ⟨item, hitem, hsome⟩
      rw [hnone item hitem] at hsome
      cases hsome
    rw [hviolated]
    rfl
  | some main =>
    have hmet : (Obligation.main p.items).violation? = none := by
      obtain ⟨item, hitem, hsome⟩ := List.exists_of_findSome?_eq_some hmain
      exact Obligation.met_main_iff.mpr ⟨item, hitem, by rw [hsome]; rfl⟩
    rw [hmet]
    rfl

theorem declarations_main_eq (p : Program) :
    (p.main?.getD ⟨[], []⟩).declarations = p.globals := by
  unfold globals
  cases p.main? <;> rfl

/-- Before the items, as far as signatures have been hoisted they are distinct. -/
theorem distinctBehind_nil (hmet : ∀ o ∈ p.hoistedObligations mode, o.Met) :
    p.DistinctBehind mode [] := by
  cases mode with
  | hoisting => exact nodup_hoisted hmet
  | singlePass => exact builtinNames_nodup

/-- The analysis up to its first item. -/
def opening (p : Program) (mode : Mode) : Edit Unit := do
  .read fun _ => .emit (.analyzing p.items.length)
  let main ← .read fun _ => p.requireMain
  .collectGlobals main.declarations
  hoist mode p.routines

theorem follows_opening (p : Program) (mode : Mode) :
    (p.opening mode).Follows .initial (p.openingObligations mode) ()
      (p.registryBehind mode []) := by
  have hobligations : p.openingObligations mode = [] ++ ([.main p.items] ++ (p.globalObligations ++
      p.hoistedObligations mode)) := by
    unfold openingObligations
    simp only [List.nil_append, List.cons_append]
  unfold opening
  rw [hobligations]
  -- the phases in their order
  refine (Edit.follows_emit _ _).bind fun _ => ?_
  refine (follows_requireMain p _).bind fun _ => ?_
  rw [declarations_main_eq]
  exact follows_collectGlobals.bind fun _ => follows_hoist

/-- The analysis up to the end of the items `front`. -/
def through (p : Program) (mode : Mode) (front : List Item) : Edit Unit := do
  p.opening mode
  front.forM (checkItem mode)

/-- What the opening of an analysis establishes. -/
theorem known_of_opening (hmet : ∀ o ∈ p.openingObligations mode, o.Met) :
    (names p.globals).Nodup ∧ p.DistinctBehind mode [] := by
  unfold openingObligations at hmet
  rw [List.forall_mem_append, List.forall_mem_cons] at hmet
  exact ⟨nodup_globals hmet.1.2, distinctBehind_nil hmet.2⟩

theorem follows_through (p : Program) (mode : Mode) (front : List Item) :
    (p.through mode front).Follows .initial
      (p.openingObligations mode ++ inTurn (p.itemObligations mode) [] front) ()
      (p.registryBehind mode front) := by
  refine (follows_opening p mode).bind fun hmet => ?_
  obtain ⟨hglobals, hdistinct⟩ := known_of_opening hmet
  exact Edit.follows_forM (p.registryBehind mode) (p.DistinctBehind mode)
    (fun _ _ h => follows_checkItem hglobals h)
    (fun _ _ h hitem => distinctBehind_concat h fun o ho => hitem o (List.mem_append_left _ ho))
    front hdistinct

theorem analysis_eq (p : Program) (mode : Mode) :
    p.analysis mode = p.through mode p.items >>= fun _ =>
      Edit.read fun r => .emit (.finished r.globals.size r.signatures.size) := by
  unfold analysis through opening
  simp only [bind_assoc]

/-- The analysis of a program settles its obligations, from the initial registry to the one that is
written out by the text. -/
theorem follows_analysis (p : Program) (mode : Mode) :
    (p.analysis mode).Follows .initial (p.obligations mode) () p.registry := by
  have hregistry : p.registryBehind mode p.items = p.registry := by
    cases mode <;> rfl
  have hthrough := follows_through p mode p.items
  rw [hregistry, ← obligations_eq_append] at hthrough
  rw [analysis_eq]
  exact hthrough.emit _

/-- The result of an analysis is the registry that its edit leaves, or the violation. -/
theorem result_analyze_eq (p : Program) (mode : Mode) :
    (p.analyze mode).result = ((p.analysis mode).outcome .initial).map Prod.snd := by
  unfold analyze Edit.outcome
  obtain ⟨⟨result, log⟩, r⟩ := (p.analysis mode).run .initial
  cases result <;> rfl

/-- The analysis fails with the violation of the first obligation that is not met, and answers the
registry that is written out by the text if all are met. -/
theorem result_analyze (p : Program) (mode : Mode) :
    (p.analyze mode).result = (settle (p.obligations mode)).map fun _ => p.registry := by
  have h : (p.analysis mode).outcome .initial =
    (settle (p.obligations mode)).map fun _ => ((), p.registry) := follows_analysis p mode
  rw [result_analyze_eq, h]
  cases settle (p.obligations mode) <;> rfl

theorem result_analyze_eq_ok_iff {r : Registry} :
    (p.analyze mode).result = .ok r ↔ (∀ o ∈ p.obligations mode, o.Met) ∧ p.registry = r := by
  rw [result_analyze, ← settle_eq_ok_iff]
  cases settle (p.obligations mode) <;> simp

theorem result_analyze_eq_error_iff {e : Violation} :
    (p.analyze mode).result = .error e ↔ settle (p.obligations mode) = .error e := by
  rw [result_analyze]
  cases settle (p.obligations mode) <;> simp

/-- An analysis fails with the violation of the first obligation that is not met, in either mode. -/
theorem analyze_error_iff_firstViolation (p : Program) (mode : Mode) (e : Violation) :
    (p.analyze mode).result = .error e ↔ FirstViolation (p.obligations mode) e :=
  result_analyze_eq_error_iff.trans settle_eq_error_iff

/-- A duplicate global goes before an undefined callee. -/
example : (analyze ⟨[.main ⟨[⟨"x", .integer⟩, ⟨"x", .integer⟩], [.call "nope" []]⟩]⟩ .hoisting).result =
    .error (.duplicateGlobal "x") := by
  rfl

end Program

end StaticCheck
