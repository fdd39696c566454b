import Mathlib.Data.List.Basic
import Mathlib.Data.List.Induction
import Mathlib.Logic.Equiv.Basic
import StaticCheck.Proofs.Analysis.Outcome
import StaticCheck.Proofs.Body.Renaming

/-!
# Renaming

The checker compares names, and otherwise it hands them on as they are. So other names do not matter
as long as distinct names stay distinct and the built-in routines keep theirs.

> `Program.result_analyze_rename`: the outcome of a renamed program is the renamed outcome, be it a
> registry or a violation.

An analysis settles the obligations of its program, and those of the renamed program are the renamed
ones (`Program.obligations_rename`). An obligation and the renamed one are violated together
(`Obligation.violation?_rename`): whether a name is taken and what it stands for are questions of
equality, which an injective renaming does not touch.

The order of names does change, and with it the order of the entries in every table. A renamed table
is sorted anew (`Table.rename`), so it is told by what it answers (`Table.get?_rename_eq_some_iff`).
-/

namespace StaticCheck

/-! ## Programs -/

/-- The declaration under the new name. -/
def Declaration.rename (s : String → String) (d : Declaration) : Declaration :=
  { d with name := s d.name }

@[simp]
theorem Declaration.name_rename (s : String → String) (d : Declaration) :
    (d.rename s).name = s d.name := rfl

/-- The signature with its name and those of its parameters renamed. -/
def Signature.rename (s : String → String) (signature : Signature) : Signature :=
  { signature with
    name := s signature.name
    parameters := signature.parameters.map fun p => (s p.1, p.2) }

/-- The header with all its names renamed. -/
def Header.rename (s : String → String) (h : Header) : Header :=
  { h with
    name := s h.name
    parameters := h.parameters.map (·.rename s)
    locals := h.locals.map (·.rename s) }

/-- The routine with the names of its header and of its body renamed. -/
def Routine.rename (s : String → String) (r : Routine) : Routine :=
  ⟨r.toHeader.rename s, Stmt.renameEach s r.body⟩

@[simp]
theorem Routine.name_rename (s : String → String) (r : Routine) :
    (r.rename s).name = s r.name := rfl

/-- The main procedure with the names of its declarations and of its body renamed. -/
def MainProc.rename (s : String → String) (m : MainProc) : MainProc :=
  ⟨m.declarations.map (·.rename s), Stmt.renameEach s m.body⟩

/-- The item renamed. -/
def Item.rename (s : String → String) : Item → Item
  | main m => main (m.rename s)
  | routine r => routine (r.rename s)

/-- The program with all names renamed that the checker looks at. -/
def Program.rename (s : String → String) (p : Program) : Program :=
  ⟨p.items.map (·.rename s)⟩

/-! ## Outcomes -/

/-- The violation with its names renamed; types stay what they are. -/
def Violation.rename (s : String → String) : Violation → Violation
  | mainMissing => mainMissing
  | duplicateGlobal name => duplicateGlobal (s name)
  | routineTakesGlobal name => routineTakesGlobal (s name)
  | duplicateRoutine name => duplicateRoutine (s name)
  | parameterTakesGlobal routine name => parameterTakesGlobal (s routine) (s name)
  | duplicateParameter routine name => duplicateParameter (s routine) (s name)
  | localTakesGlobal routine name => localTakesGlobal (s routine) (s name)
  | duplicateLocal routine name => duplicateLocal (s routine) (s name)
  | undeclaredVariable name => undeclaredVariable (s name)
  | undefinedCallee name => undefinedCallee (s name)
  | procedureAsValue name => procedureAsValue (s name)
  | typeMismatch target expected received => typeMismatch (s target) expected received

namespace Table

variable {V W : Type}

/-- The table with its entries under new names, and `value` applied to what they hold. -/
def rename (s : String → String) (value : V → W) (t : Table V) : Table W :=
  .ofList (t.entries.map fun e => (s e.1, value e.2))

end Table

/-- The registry with all its names renamed. -/
def Registry.rename (s : String → String) (r : Registry) : Registry where
  globals := r.globals.rename s id
  signatures := r.signatures.rename s (·.rename s)
  locals := r.locals.rename s (·.rename s id)

/-! ## Obligations -/

/-- What can be seen from a body, under the new names. -/
def View.rename (s : String → String) (v : View) : View where
  locals := v.locals.map (·.rename s)
  globals := v.globals.map (·.rename s)
  signatures := v.signatures.map (·.rename s)

/-- The obligation with all its names renamed. -/
def Obligation.rename (s : String → String) : Obligation → Obligation
  | main items => main (items.map (·.rename s))
  | global taken name => global (taken.map s) (s name)
  | routine globals taken name => routine (globals.map s) (taken.map s) (s name)
  | parameter globals earlier owner name =>
    parameter (globals.map s) (earlier.map s) (s owner) (s name)
  | localVar globals earlier owner name =>
    localVar (globals.map s) (earlier.map s) (s owner) (s name)
  | event view ev => event (view.rename s) (ev.rename s)

/-! ## Tables under an injective renaming -/

section

variable {s : String → String} (hs : Function.Injective s)

include hs

namespace Table

variable {V W : Type}

theorem nodup_rename (value : V → W) (t : Table V) :
    ((t.entries.map fun e => (s e.1, value e.2)).map Prod.fst).Nodup := by
  rw [List.map_map]
  exact List.pairwise_map.mpr (t.ordered.imp fun h => hs.ne (Text.ne_of_before h))

/-- A renamed table answers a new name by what the table answers the old one. -/
theorem get?_rename_eq_some_iff {value : V → W} {t : Table V} {k : String} {w : W} :
    (t.rename s value).get? k = some w ↔ ∃ l v, s l = k ∧ value v = w ∧ t.get? l = some v := by
  unfold rename
  rw [get?_ofList_eq_some_iff (nodup_rename hs value t), List.mem_map]
  constructor
  · intro h
    obtain ⟨⟨l, v⟩, hmem, heq⟩ := h
    cases heq
    exact ⟨l, v, rfl, rfl, mem_entries_iff.mp hmem⟩
  · intro h
    obtain ⟨l, v, rfl, rfl, hget⟩ := h
    exact ⟨(l, v), mem_entries_iff.mpr hget, rfl⟩

theorem rename_insert (value : V → W) (t : Table V) (k : String) (v : V) :
    (t.insert k v).rename s value = (t.rename s value).insert (s k) (value v) := by
  ext l w
  rw [get?_rename_eq_some_iff hs]
  by_cases hl : l = s k
  · subst hl
    simp [hs.eq_iff]
  · rw [get?_insert_of_ne _ _ hl, get?_rename_eq_some_iff hs]
    refine exists_congr fun m => exists_congr fun u => and_congr_right fun hm => ?_
    have hmk : m ≠ k := fun heq => hl (hm.symm.trans (congrArg s heq))
    simp [hmk]

/-- The table of renamed entries is the renamed table, whether or not a name has several entries. -/
theorem rename_ofList (value : V → W) (es : List (String × V)) :
    (ofList es).rename s value = ofList (es.map fun e => (s e.1, value e.2)) := by
  induction es using List.reverseRecOn with
  | nil => rfl
  | append_singleton es e ih => simp [rename_insert hs, ih]

end Table

/-! ## Obligations under an injective renaming -/

theorem declaredTy?_rename (ds : List Declaration) (name : String) :
    declaredTy? (ds.map (·.rename s)) (s name) = declaredTy? ds name := by
  have hname : ∀ d : Declaration, decide ((d.rename s).name = s name) = decide (d.name = name) :=
    fun d => decide_eq_decide.mpr hs.eq_iff
  unfold declaredTy?
  rw [List.find?_map, Option.map_map]
  simp only [Function.comp_def, hname]
  rfl

theorem declaredSignature?_rename (signatures : List Signature) (callee : String) :
    declaredSignature? (signatures.map (·.rename s)) (s callee) =
      (declaredSignature? signatures callee).map (·.rename s) := by
  have hname : ∀ f : Signature, decide ((f.rename s).name = s callee) = decide (f.name = callee) :=
    fun f => decide_eq_decide.mpr hs.eq_iff
  unfold declaredSignature?
  rw [List.find?_map]
  simp only [Function.comp_def, hname]

namespace View

theorem ty?_rename (v : View) (name : String) : (v.rename s).ty? (s name) = v.ty? name := by
  simp [ty?, rename, declaredTy?_rename hs]

theorem signature?_rename (v : View) (callee : String) :
    (v.rename s).signature? (s callee) = (v.signature? callee).map (·.rename s) :=
  declaredSignature?_rename hs v.signatures callee

/-- A renamed tag stands for the same type, or is refused for the renamed callee. -/
theorem received_rename (v : View) (tag : Tag) :
    (v.rename s).received (tag.rename s) = (v.received tag).mapError (·.rename s) := by
  cases tag with
  | functionCall callee =>
    unfold Tag.rename received
    dsimp only
    rw [signature?_rename hs]
    cases v.signature? callee with
    | none => rfl
    | some f =>
      obtain ⟨name, returnTy, parameters⟩ := f
      cases returnTy <;> rfl
  | integer => rfl
  | string => rfl
  | boolean => rfl
  | var => rfl
  | other raw => rfl

theorem violation?_rename (v : View) (ev : Event) :
    (v.rename s).violation? (ev.rename s) = (v.violation? ev).map (·.rename s) := by
  cases ev with
  | call callee =>
    unfold Event.rename violation?
    dsimp only
    rw [signature?_rename hs, Option.isSome_map, apply_ite (Option.map _)]
    rfl
  | assign target tag =>
    unfold Event.rename violation?
    dsimp only
    rw [ty?_rename hs, received_rename hs]
    cases v.ty? target with
    | none => rfl
    | some expected =>
      cases v.received tag with
      | error e => rfl
      | ok received =>
        show (if received = .typed expected then none else _) = _
        dsimp only
        rw [apply_ite (Option.map _)]
        rfl

end View

namespace Obligation

/-- Whether a name is refused for being taken does not depend on what the names are. -/
theorem refusals_rename {globals taken : List String} {name : String} (d e : Violation) :
    (if s name ∈ globals.map s then some (d.rename s)
      else if s name ∈ taken.map s then some (e.rename s) else none) =
      (if name ∈ globals then some d else if name ∈ taken then some e else none).map
        (·.rename s) := by
  rw [apply_ite (Option.map _), apply_ite (Option.map _),
    if_congr (List.mem_map_of_injective hs) rfl rfl,
    if_congr (List.mem_map_of_injective hs) rfl rfl]
  rfl

/-- A renamed obligation is violated together with the obligation. -/
theorem violation?_rename (o : Obligation) :
    (o.rename s).violation? = o.violation?.map (·.rename s) := by
  cases o with
  | main items =>
    have hmain : (fun item : Item => (item.rename s).main?.isSome) = fun item => item.main?.isSome := by
      funext item
      cases item <;> rfl
    unfold rename violation?
    dsimp only
    rw [List.any_map, apply_ite (Option.map _)]
    unfold Function.comp
    rw [hmain]
    rfl
  | global taken name =>
    unfold rename violation?
    dsimp only
    rw [apply_ite (Option.map _), if_congr (List.mem_map_of_injective hs) rfl rfl]
    rfl
  | routine globals taken name =>
    exact refusals_rename hs (.routineTakesGlobal name) (.duplicateRoutine name)
  | parameter globals earlier owner name =>
    exact refusals_rename hs (.parameterTakesGlobal owner name) (.duplicateParameter owner name)
  | localVar globals earlier owner name =>
    exact refusals_rename hs (.localTakesGlobal owner name) (.duplicateLocal owner name)
  | event v ev => exact View.violation?_rename hs v ev

end Obligation

theorem settle_rename (os : List Obligation) :
    settle (os.map (·.rename s)) = (settle os).mapError (·.rename s) := by
  induction os with
  | nil => rfl
  | cons o os ih =>
    rw [List.map_cons, settle_cons, settle_cons o os, ih, settle_singleton, settle_singleton,
      Obligation.violation?_rename hs]
    cases o.violation? <;> rfl

end

/-! ## Renamed programs -/

@[simp]
theorem names_rename (s : String → String) (ds : List Declaration) :
    names (ds.map (·.rename s)) = (names ds).map s := by
  simp [names]

/-- What is asked of renamed members in turn is what is asked of the members, renamed. -/
theorem inTurn_rename {α : Type} {s : String → String} {key : α → α}
    {ask asked : List α → α → List Obligation}
    (h : ∀ earlier a, asked (earlier.map key) (key a) = (ask earlier a).map (·.rename s))
    (front as : List α) :
    inTurn asked (front.map key) (as.map key) = (inTurn ask front as).map (·.rename s) := by
  rw [inTurn_map]
  induction as generalizing front with
  | nil => rfl
  | cons a as ih => rw [inTurn, inTurn, h, ih, List.map_append]

namespace View

theorem obligations_rename (s : String → String) (v : View) (body : List Stmt) :
    (v.rename s).obligations (Stmt.renameEach s body) =
      (v.obligations body).map (·.rename s) := by
  simp [obligations, Obligation.rename]

end View

namespace Header

theorem obligations_rename (s : String → String) (h : Header) (globals : List Declaration) :
    (h.rename s).obligations (globals.map (·.rename s)) =
      (h.obligations globals).map (·.rename s) := by
  unfold obligations parameterObligations localObligations
  rw [List.map_append]
  refine congrArg₂ (· ++ ·) (inTurn_rename (fun earlier d => ?_) [] _)
    (inTurn_rename (fun earlier d => ?_) [] _)
  · simp [rename, Obligation.rename]
  · simp [rename, Obligation.rename]

theorem table_rename {s : String → String} (hs : Function.Injective s) (h : Header) :
    (h.rename s).table = h.table.rename s id := by
  unfold table localListing symbols rename
  rw [Table.rename_ofList hs, List.map_append]
  simp only [List.map_map]
  rfl

end Header

namespace Program

section

variable {s : String → String}

theorem routines_rename (s : String → String) (items : List Item) :
    (items.map (·.rename s)).filterMap Item.routine? =
      (items.filterMap Item.routine?).map (·.rename s) := by
  rw [List.filterMap_map, List.map_filterMap]
  refine congrArg (List.filterMap · items) (funext fun item => ?_)
  cases item <;> rfl

@[simp]
theorem globals_rename (s : String → String) (p : Program) :
    (p.rename s).globals = p.globals.map (·.rename s) := by
  have hmain : (p.rename s).main? = p.main?.map (·.rename s) := by
    unfold main? rename
    rw [List.findSome?_map, List.map_findSome?]
    refine congrArg (List.findSome? · p.items) (funext fun item => ?_)
    cases item <;> rfl
  unfold globals
  rw [hmain]
  cases p.main? <;> rfl

theorem routine_names_rename (s : String → String) (routines : List Routine) :
    (routines.map (·.rename s)).map (·.name) = (routines.map (·.name)).map s := by
  simp

theorem signatures_rename (s : String → String) (routines : List Routine) :
    (routines.map (·.rename s)).map (·.signature) =
      (routines.map (·.signature)).map (·.rename s) := by
  have hsignature : ∀ h : Header, (h.rename s).signature = h.signature.rename s := by
    intro h
    simp [Header.signature, Signature.rename, Header.rename, Declaration.rename]
  rw [List.map_map, List.map_map]
  exact List.map_congr_left fun r _ => hsignature r.toHeader

theorem declared_rename (p : Program) (mode : Mode) (reached : List Item) :
    (p.rename s).declared mode (reached.map (·.rename s)) =
      (p.declared mode reached).map (·.rename s) := by
  cases mode with
  | hoisting => exact routines_rename s p.items
  | singlePass => exact routines_rename s reached

variable (hbuiltin : ∀ name ∈ builtinNames, s name = name)

include hbuiltin

theorem builtinNames_rename : builtinNames.map s = builtinNames :=
  (List.map_congr_left hbuiltin).trans (List.map_id _)

theorem builtinNames_append_rename (taken : List String) :
    builtinNames ++ taken.map s = (builtinNames ++ taken).map s := by
  simp [builtinNames_rename hbuiltin]

theorem builtins_rename : builtins.map (·.rename s) = builtins := by
  -- no built-in routine has parameters, so its name is all that there is to rename
  have hparameters : ∀ b ∈ builtins, b.parameters = [] := by decide
  have hb : ∀ b ∈ builtins, b.rename s = b := by
    intro b hmem
    have hname : s b.name = b.name := hbuiltin b.name (List.mem_map_of_mem hmem)
    have hnone : b.parameters = [] := hparameters b hmem
    obtain ⟨name, returnTy, parameters⟩ := b
    cases hnone
    unfold Signature.rename
    rw [hname]
    rfl
  exact (List.map_congr_left hb).trans (List.map_id _)

theorem globalObligations_rename (p : Program) :
    (p.rename s).globalObligations = p.globalObligations.map (·.rename s) := by
  unfold globalObligations
  rw [globals_rename]
  refine inTurn_rename (fun earlier d => ?_) [] _
  rw [names_rename, builtinNames_append_rename hbuiltin]
  rfl

theorem routineObligation_rename (p : Program) (earlier : List Routine) (routine : Routine) :
    (p.rename s).routineObligation (earlier.map (·.rename s)) (routine.rename s) =
      (p.routineObligation earlier routine).rename s := by
  unfold routineObligation
  rw [globals_rename, names_rename, routine_names_rename, builtinNames_append_rename hbuiltin]
  rfl

theorem hoistedObligations_rename (p : Program) (mode : Mode) :
    (p.rename s).hoistedObligations mode = (p.hoistedObligations mode).map (·.rename s) := by
  cases mode with
  | singlePass => rfl
  | hoisting =>
    unfold hoistedObligations routines
    dsimp only
    rw [show (p.rename s).items = p.items.map (·.rename s) from rfl, routines_rename]
    refine inTurn_rename (fun earlier routine => ?_) [] _
    rw [routineObligation_rename hbuiltin]
    rfl

theorem view_rename (p : Program) (mode : Mode) (locals : List Declaration) (reached : List Item) :
    (p.rename s).view mode (locals.map (·.rename s)) (reached.map (·.rename s)) =
      (p.view mode locals reached).rename s := by
  unfold view View.rename
  rw [globals_rename, declared_rename, signatures_rename]
  dsimp only
  rw [List.map_append, builtins_rename hbuiltin]

theorem reachedObligations_rename (p : Program) (mode : Mode) (earlier : List Item)
    (routine : Routine) :
    (p.rename s).reachedObligations mode (earlier.map (·.rename s)) (routine.rename s) =
      (p.reachedObligations mode earlier routine).map (·.rename s) := by
  cases mode with
  | hoisting => rfl
  | singlePass =>
    unfold reachedObligations
    dsimp only
    rw [routines_rename, routineObligation_rename hbuiltin]
    rfl

theorem entryObligations_rename (p : Program) (mode : Mode) (earlier : List Item) (item : Item) :
    (p.rename s).entryObligations mode (earlier.map (·.rename s)) (item.rename s) =
      (p.entryObligations mode earlier item).map (·.rename s) := by
  cases item with
  | main m => rfl
  | routine r =>
    show (p.rename s).reachedObligations mode _ (r.rename s) ++
      (r.toHeader.rename s).obligations (p.rename s).globals = _
    rw [reachedObligations_rename hbuiltin, globals_rename, Header.obligations_rename,
      ← List.map_append]
    rfl

theorem itemObligations_rename (p : Program) (mode : Mode) (earlier : List Item) (item : Item) :
    (p.rename s).itemObligations mode (earlier.map (·.rename s)) (item.rename s) =
      (p.itemObligations mode earlier item).map (·.rename s) := by
  have hlocals : (item.rename s).locals = item.locals.map (·.rename s) := by
    cases item with
    | main m => rfl
    | routine r => exact List.map_append.symm
  have hbody : (item.rename s).body = Stmt.renameEach s item.body := by
    cases item <;> rfl
  have hreached : earlier.map (·.rename s) ++ [item.rename s] =
      (earlier ++ [item]).map (·.rename s) := by simp
  unfold itemObligations
  rw [entryObligations_rename hbuiltin, hlocals, hbody, hreached, view_rename hbuiltin,
    View.obligations_rename, List.map_append]

/-- A renamed program has to meet the renamed obligations, in the same order. -/
theorem obligations_rename (p : Program) (mode : Mode) :
    (p.rename s).obligations mode = (p.obligations mode).map (·.rename s) := by
  have hitems : inTurn ((p.rename s).itemObligations mode) [] (p.rename s).items =
      (inTurn (p.itemObligations mode) [] p.items).map (·.rename s) :=
    inTurn_rename (itemObligations_rename hbuiltin p mode) [] p.items
  unfold obligations
  rw [globalObligations_rename hbuiltin, hoistedObligations_rename hbuiltin, hitems, List.map_append,
    List.map_append]
  rfl

theorem registry_rename (hs : Function.Injective s) (p : Program) :
    (p.rename s).registry = p.registry.rename s := by
  have hroutines : (p.rename s).routines = p.routines.map (·.rename s) := routines_rename s p.items
  have hsignatures : builtins ++ (p.routines.map (·.signature)).map (·.rename s) =
      (builtins ++ p.routines.map (·.signature)).map (·.rename s) := by
    simp [builtins_rename hbuiltin]
  have htable : ∀ r : Routine, (r.rename s).table = r.table.rename s id :=
    fun r => Header.table_rename hs r.toHeader
  unfold registry Registry.listing Registry.rename
  rw [globals_rename, hroutines, signatures_rename, hsignatures]
  dsimp only
  rw [Table.rename_ofList hs, Table.rename_ofList hs, Table.rename_ofList hs]
  simp only [List.map_map, Function.comp_def, htable]
  rfl

end

/-- A renaming that keeps distinct names distinct and the built-in ones as they are renames the
outcome of the analysis, in either mode. -/
theorem result_analyze_rename (p : Program) (mode : Mode) {s : String → String}
    (hs : Function.Injective s) (hbuiltin : ∀ name ∈ builtinNames, s name = name) :
    ((p.rename s).analyze mode).result =
      ((p.analyze mode).result.map (·.rename s)).mapError (·.rename s) := by
  rw [result_analyze, result_analyze, obligations_rename hbuiltin, settle_rename hs,
    registry_rename hbuiltin hs]
  cases settle (p.obligations mode) <;> rfl

/-- A main procedure with two globals and a function behind it, which has the local variable
`localName`. -/
def twoGlobals (localName : String) : Program :=
  ⟨[.main ⟨[⟨"a", .integer⟩, ⟨"b", .integer⟩], [.assign "a" none (.ofCall "f" [])]⟩,
    .routine ⟨⟨"f", [⟨"x", .string⟩], some VarTy.integer, [⟨localName, .boolean⟩]⟩,
      [.assign localName none (.literal .boolean "true"), .call "echo" [.ofCall "f" []]]⟩]⟩

/-- The first global moves behind the second one, and a local variable that takes its name is refused
for its new name. -/
theorem result_analyze_rename_twoGlobals :
    (((twoGlobals "u").rename (Equiv.swap "a" "z")).analyze .hoisting).result =
        .ok ((twoGlobals "u").registry.rename (Equiv.swap "a" "z")) ∧
      ((twoGlobals "u").registry.rename (Equiv.swap "a" "z")).globals.entries =
        [("b", .integer), ("z", .integer)] ∧
      (((twoGlobals "a").rename (Equiv.swap "a" "z")).analyze .hoisting).result =
        .error (.localTakesGlobal "f" "z") := by
  have hs : Function.Injective (Equiv.swap "a" "z") := Equiv.injective _
  have hbuiltin : ∀ name ∈ builtinNames, Equiv.swap "a" "z" name = name := by decide
  refine ⟨?_, rfl, ?_⟩
  · rw [result_analyze_rename (twoGlobals "u") .hoisting hs hbuiltin]
    rfl
  · rw [result_analyze_rename (twoGlobals "a") .hoisting hs hbuiltin]
    rfl

end Program

end StaticCheck
