import StaticCheck.Proofs.Analysis.Modes
import StaticCheck.Proofs.Analysis.WellFormed

/-!
# The registry of a program

If an analysis answers a registry, then that can be said by the text alone, in either mode
(`Program.closedForm_of_analyze`): its globals are the declarations of the first main procedure, its
signatures are those of the built-in routines and one for each routine, and it has one local table
for each routine, of its parameters and local variables. Nothing is merged, overwritten or lost, so
each table is as large as the list that it comes from.

A table that is written out by a list answers by the list, and is as large as it, where the list
holds each name once. The names of an accepted program are distinct in all these lists, since it is
well formed.
-/

namespace StaticCheck

/-- The table has the parameters and local variables of the routine and no others, and none of them
is a global. -/
structure LocalTable.ClosedForm (table : LocalTable) (h : Header) (globals : Table VarTy) :
    Prop where
  parameters : ∀ name ty, table.get? name = some ⟨ty, .parameter⟩ ↔ ⟨name, ty⟩ ∈ h.parameters
  locals : ∀ name ty, table.get? name = some ⟨ty, .var⟩ ↔ ⟨name, ty⟩ ∈ h.locals
  size : table.size = h.parameters.length + h.locals.length
  apart : ∀ name, table.contains name = true → globals.contains name = false

/-- The registry has the names of the program and no others. -/
structure Registry.ClosedForm (r : Registry) (p : Program) : Prop where
  main : ∃ main, p.main? = some main ∧ p.globals = main.declarations
  globals : ∀ name ty, r.global? name = some ty ↔ ⟨name, ty⟩ ∈ p.globals
  globals_size : r.globals.size = p.globals.length
  /-- A procedure has the return type `Ty.none`. -/
  signatures : ∀ name s, r.signature? name = some s ↔ s.name = name ∧
    (s ∈ builtins ∨ ∃ routine ∈ p.routines, s = ⟨routine.name, routine.returnTy.getD .none,
      routine.parameters.map fun d => (d.name, .var d.ty)⟩)
  signatures_size : r.signatures.size = 5 + p.routines.length
  owners : ∀ name, r.locals.contains name = true ↔ ∃ routine ∈ p.routines, routine.name = name
  locals_size : r.locals.size = p.routines.length
  tables : ∀ routine ∈ p.routines, ∃ table, r.locals? routine.name = some table ∧
    table.ClosedForm routine.toHeader r.globals
  /-- The parameters of a local table are those of the signature of the same name. -/
  agreement : ∀ name s table, r.signature? name = some s → r.locals? name = some table →
    ∀ x ty, table.get? x = some ⟨ty, .parameter⟩ ↔ (x, .var ty) ∈ s.parameters
  /-- Nothing but the declarations of the first main procedure and the headers has an influence. -/
  uninfluenced : ∀ (q : Program) (mode : Mode) (r' : Registry), q.globals = p.globals →
    q.routines.map (·.toHeader) = p.routines.map (·.toHeader) → (q.analyze mode).result = .ok r' →
      r' = r

/-! ## The entries of declarations -/

theorem mem_map_declaration_iff {V : Type} (value : VarTy → V)
    (hvalue : ∀ {a b}, value a = value b → a = b) {ds : List Declaration} {name : String}
    {ty : VarTy} :
    (name, value ty) ∈ ds.map (fun d => (d.name, value d.ty)) ↔ ⟨name, ty⟩ ∈ ds := by
  rw [List.mem_map]
  constructor
  · intro h
    obtain ⟨⟨x, a⟩, hd, heq⟩ := h
    obtain ⟨rfl, hty⟩ := Prod.mk.inj heq
    cases hvalue hty
    exact hd
  · intro h
    exact ⟨⟨name, ty⟩, h, rfl⟩

@[simp]
theorem mem_symbols_iff {kind : LocalKind} {ds : List Declaration} {name : String}
    {symbol : LocalSymbol} :
    (name, symbol) ∈ symbols kind ds ↔ symbol.kind = kind ∧ ⟨name, symbol.ty⟩ ∈ ds := by
  unfold symbols
  rw [List.mem_map]
  constructor
  · intro h
    obtain ⟨d, hd, heq⟩ := h
    cases heq
    exact ⟨rfl, hd⟩
  · intro h
    obtain ⟨rfl, hd⟩ := h
    exact ⟨_, hd, rfl⟩

namespace Header

variable {h : Header}

theorem nodup_symbols (hdistinct : (names (h.parameters ++ h.locals)).Nodup) :
    ((symbols .parameter h.parameters ++ symbols .var h.locals).map Prod.fst).Nodup := by
  simpa using hdistinct

theorem get?_table_iff (hdistinct : (names (h.parameters ++ h.locals)).Nodup) {name : String}
    {symbol : LocalSymbol} :
    h.table.get? name = some symbol ↔
      symbol.kind = .parameter ∧ ⟨name, symbol.ty⟩ ∈ h.parameters ∨
        symbol.kind = .var ∧ ⟨name, symbol.ty⟩ ∈ h.locals := by
  simp [table, localListing, Table.get?_ofList_eq_some_iff (nodup_symbols hdistinct)]

/-- The local table of a routine with distinct names, none of them a global. -/
theorem closedForm_table {globals : Table VarTy}
    (hdistinct : (names (h.parameters ++ h.locals)).Nodup)
    (hfresh : ∀ d ∈ h.parameters ++ h.locals, globals.contains d.name = false) :
    h.table.ClosedForm h globals := by
  constructor
  case parameters =>
    intro name ty
    rw [get?_table_iff hdistinct]
    simp
  case locals =>
    intro name ty
    rw [get?_table_iff hdistinct]
    simp
  case size =>
    unfold table localListing
    rw [Table.size_ofList (nodup_symbols hdistinct)]
    simp [symbols]
  case apart =>
    intro name hname
    obtain ⟨d, hd, rfl⟩ := List.mem_map.mp (contains_localListing_iff.mp hname)
    exact hfresh d hd

end Header

namespace Program

variable {p : Program} {mode : Mode} {r : Registry}

/-- An accepted program is well formed, and its registry is written out by the text. -/
theorem wellFormed_of_analyze (h : (p.analyze mode).result = .ok r) :
    p.WellFormed ∧ p.registry = r := by
  have hhoisting : (p.analyze .hoisting).result = .ok r := by
    cases mode with
    | hoisting => exact h
    | singlePass => exact result_hoisting_of_singlePass h
  obtain ⟨hmet, hregistry⟩ := result_analyze_eq_ok_iff.mp hhoisting
  exact ⟨forall_met_iff_wellFormed.mp hmet, hregistry⟩

/-- The registry that is written out by the text depends on the globals and the headers alone. -/
theorem registry_eq_of_headers {q : Program} (hglobals : q.globals = p.globals)
    (hheaders : q.routines.map (·.toHeader) = p.routines.map (·.toHeader)) :
    q.registry = p.registry := by
  have hsignatures : q.routines.map (·.signature) = p.routines.map (·.signature) := by
    simpa [Function.comp_def] using congrArg (List.map Header.signature) hheaders
  have htables : q.routines.map (fun routine => (routine.name, routine.table)) =
      p.routines.map fun routine => (routine.name, routine.table) := by
    simpa [Function.comp_def] using
      congrArg (List.map fun h : Header => (h.name, h.table)) hheaders
  unfold registry Registry.listing
  rw [hglobals, hsignatures, htables]

namespace WellFormed

variable (h : p.WellFormed)
include h

theorem nodup_signatures :
    (((builtins ++ p.routines.map (·.signature)).map fun s => (s.name, s)).map Prod.fst).Nodup := by
  rw [List.map_map]
  show ((builtins ++ p.routines.map (·.signature)).map (·.name)).Nodup
  rw [map_name_signatures]
  exact (nodup_append_map_iff builtinNames_nodup).mpr
    ⟨h.routines_distinct, fun routine hroutine => (h.routines_fresh routine hroutine).1⟩

theorem nodup_globals : ((p.globals.map fun d => (d.name, d.ty)).map Prod.fst).Nodup := by
  rw [List.map_map]
  exact h.globals_distinct

theorem nodup_owners :
    ((p.routines.map fun routine => (routine.name, routine.table)).map Prod.fst).Nodup := by
  rw [List.map_map]
  exact h.routines_distinct

theorem global?_registry_iff {name : String} {ty : VarTy} :
    p.registry.global? name = some ty ↔ ⟨name, ty⟩ ∈ p.globals := by
  show (Table.ofList _).get? name = some ty ↔ _
  rw [Table.get?_ofList_eq_some_iff h.nodup_globals]
  exact mem_map_declaration_iff id id

theorem signature?_registry_iff {name : String} {s : Signature} :
    p.registry.signature? name = some s ↔
      s.name = name ∧ (s ∈ builtins ∨ ∃ routine ∈ p.routines, s = routine.signature) := by
  show (Table.ofList _).get? name = some s ↔ _
  rw [Table.get?_ofList_eq_some_iff h.nodup_signatures, List.mem_map]
  constructor
  · intro hentry
    obtain ⟨t, ht, heq⟩ := hentry
    cases heq
    refine ⟨rfl, (List.mem_append.mp ht).imp_right fun hroutine => ?_⟩
    obtain ⟨routine, hmem, heq⟩ := List.mem_map.mp hroutine
    exact ⟨routine, hmem, heq.symm⟩
  · intro hknown
    obtain ⟨rfl, hs⟩ := hknown
    refine ⟨s, List.mem_append.mpr (hs.imp_right fun hroutine => ?_), rfl⟩
    obtain ⟨routine, hmem, heq⟩ := hroutine
    exact List.mem_map.mpr ⟨routine, hmem, heq.symm⟩

theorem locals?_registry_iff {name : String} {table : LocalTable} :
    p.registry.locals? name = some table ↔
      ∃ routine ∈ p.routines, routine.name = name ∧ table = routine.table := by
  show (Table.ofList _).get? name = some table ↔ _
  rw [Table.get?_ofList_eq_some_iff h.nodup_owners, List.mem_map]
  refine exists_congr fun routine => and_congr_right fun _ => ?_
  rw [Prod.mk.injEq]
  exact and_congr_right fun _ => eq_comm

/-- The signature of a routine is found under its name. -/
theorem signature?_registry {routine : Routine} (hroutine : routine ∈ p.routines) :
    p.registry.signature? routine.name = some routine.signature :=
  h.signature?_registry_iff.mpr ⟨rfl, Or.inr ⟨routine, hroutine, rfl⟩⟩

theorem closedForm_table {routine : Routine} (hroutine : routine ∈ p.routines) :
    routine.table.ClosedForm routine.toHeader p.registry.globals := by
  refine Header.closedForm_table (h.locals_distinct routine hroutine) fun d hd => ?_
  rw [← Bool.not_eq_true]
  intro hglobal
  exact h.locals_fresh routine hroutine d hd (Registry.contains_globals_listing_iff.mp hglobal)

end WellFormed

/-- What an analysis answers is written out by the text. -/
theorem closedForm_of_analyze (p : Program) (mode : Mode) (r : Registry)
    (h : (p.analyze mode).result = .ok r) : r.ClosedForm p := by
  obtain ⟨hformed, rfl⟩ := wellFormed_of_analyze h
  constructor
  case main =>
    obtain ⟨m, hm⟩ := hformed.main
    cases hmain : p.main? with
    | none => exact absurd (List.findSome?_eq_none_iff.mp hmain (.main m) hm) nofun
    | some main =>
      refine ⟨main, rfl, ?_⟩
      unfold globals
      rw [hmain]
      rfl
  case globals => exact fun name ty => hformed.global?_registry_iff
  case globals_size => exact (Table.size_ofList hformed.nodup_globals).trans (List.length_map _)
  case signatures => exact fun name s => hformed.signature?_registry_iff
  case signatures_size =>
    refine (Table.size_ofList hformed.nodup_signatures).trans ?_
    rw [List.length_map, List.length_append, List.length_map]
    rfl
  case owners =>
    intro name
    refine Table.contains_ofList_iff.trans ?_
    rw [List.map_map]
    exact List.mem_map
  case locals_size => exact (Table.size_ofList hformed.nodup_owners).trans (List.length_map _)
  case tables =>
    intro routine hroutine
    exact ⟨routine.table, hformed.locals?_registry_iff.mpr ⟨routine, hroutine, rfl, rfl⟩,
      hformed.closedForm_table hroutine⟩
  case agreement =>
    intro name s table hs htable x ty
    obtain ⟨routine, hroutine, rfl, rfl⟩ := hformed.locals?_registry_iff.mp htable
    rw [hformed.signature?_registry hroutine] at hs
    cases hs
    rw [(hformed.closedForm_table hroutine).parameters]
    exact (mem_map_declaration_iff Ty.var Ty.var.inj).symm
  case uninfluenced =>
    intro q mode' r' hglobals hheaders hq
    obtain ⟨-, rfl⟩ := wellFormed_of_analyze hq
    exact registry_eq_of_headers hglobals hheaders

/-- A function with a parameter and a local variable between two main procedures. -/
def betweenMains : Program :=
  ⟨[.main ⟨[⟨"x", .integer⟩], [.assign "x" none (.ofCall "f" [])]⟩,
    .routine ⟨⟨"f", [⟨"a", .string⟩], some VarTy.integer, [⟨"b", .boolean⟩]⟩, []⟩,
    .main ⟨[⟨"f", .float⟩], []⟩]⟩

theorem closedForm_betweenMains : betweenMains.registry.ClosedForm betweenMains := by
  have h : (betweenMains.analyze .hoisting).result = .ok betweenMains.registry := by rfl
  exact closedForm_of_analyze betweenMains .hoisting betweenMains.registry h

end Program

end StaticCheck
