import StaticCheck.Proofs.Analysis.Obligation
import StaticCheck.Table.Lemmas

/-!
# Registries written out

Every registry on the way of a successful analysis is written out by three lists of the text
(`Registry.listing`): the globals declared so far, the routines declared so far, and the routines
checked so far. `Program.registry` is the last one. The local table of a routine is likewise
written out by its header (`Header.table`).

Which names these tables know can be read off the lists (`contains_globals_listing_iff` and its
siblings). What they answer can be read off the lists too, as long as no list holds a name twice
(`global?_listing` and its siblings).
-/

namespace StaticCheck

@[simp]
theorem declaredTy?_append (xs ys : List Declaration) (name : String) :
    declaredTy? (xs ++ ys) name = (declaredTy? xs name).or (declaredTy? ys name) := by
  simp [declaredTy?, Option.map_or]

/-- A look-up among named values finds the value of the first member with the name. -/
theorem lookup_map_eq {α V : Type} (key : α → String) (value : α → V) (as : List α)
    (k : String) :
    (as.map fun a => (key a, value a)).lookup k =
      (as.find? fun a => decide (key a = k)).map value := by
  induction as with
  | nil => rfl
  | cons a as ih =>
    rw [List.map_cons, List.lookup_cons, List.find?_cons]
    by_cases h : key a = k
    · simp [h]
    · simp [h, beq_false_of_ne (Ne.symm h), ih]

/-! ## The local table of a routine -/

/-- The entries of declarations in a local table. -/
def symbols (kind : LocalKind) (declarations : List Declaration) : List (String × LocalSymbol) :=
  declarations.map fun d => (d.name, ⟨d.ty, kind⟩)

@[simp]
theorem map_fst_symbols (kind : LocalKind) (ds : List Declaration) :
    (symbols kind ds).map Prod.fst = names ds := by
  simp [symbols, names]

theorem lookup_symbols (kind : LocalKind) (ds : List Declaration) (name : String) :
    ((symbols kind ds).lookup name).map LocalSymbol.ty = declaredTy? ds name := by
  simp [symbols, declaredTy?, lookup_map_eq, Function.comp_def]

/-- The local table of these parameters and local variables. -/
def localListing (parameters locals : List Declaration) : LocalTable :=
  .ofList (symbols .parameter parameters ++ symbols .var locals)

/-- The local table of a routine with this header. -/
def Header.table (h : Header) : LocalTable :=
  localListing h.parameters h.locals

@[simp]
theorem contains_localListing_iff {parameters locals : List Declaration} {name : String} :
    (localListing parameters locals).contains name = true ↔ name ∈ names (parameters ++ locals) := by
  simp [localListing]

theorem ty?_localListing {parameters locals : List Declaration}
    (h : (names (parameters ++ locals)).Nodup) (name : String) :
    (localListing parameters locals).ty? name = declaredTy? (parameters ++ locals) name := by
  have hkeys : ((symbols .parameter parameters ++ symbols .var locals).map Prod.fst).Nodup := by
    simpa using h
  unfold localListing LocalTable.ty?
  rw [Table.get?_ofList hkeys, List.lookup_append, Option.map_or, lookup_symbols, lookup_symbols,
    declaredTy?_append]

/-! ## Registries -/

/-- The registry that knows these globals, these routines besides the built-in ones, and the local
names of the routines `checked`. -/
def Registry.listing (globals : List Declaration) (routines checked : List Routine) : Registry where
  globals := .ofList (globals.map fun d => (d.name, d.ty))
  signatures := .ofList ((builtins ++ routines.map (·.signature)).map fun s => (s.name, s))
  locals := .ofList (checked.map fun routine => (routine.name, routine.table))

/-- The registry that knows all names of a program. -/
def Program.registry (p : Program) : Registry :=
  .listing p.globals p.routines p.routines

namespace Registry

variable {globals : List Declaration} {routines checked : List Routine} {name : String}

@[simp]
theorem contains_globals_listing_iff :
    (listing globals routines checked).globals.contains name = true ↔ name ∈ names globals := by
  simp [listing, names]

@[simp]
theorem contains_signatures_listing_iff :
    (listing globals routines checked).signatures.contains name = true ↔
      name ∈ builtinNames ++ routines.map (·.name) := by
  unfold listing
  rw [Table.contains_ofList_iff, List.map_map, ← map_name_signatures]
  rfl

theorem global?_listing (h : (names globals).Nodup) :
    (listing globals routines checked).global? name = declaredTy? globals name := by
  unfold global? listing declaredTy?
  rw [Table.get?_ofList (by rw [List.map_map]; exact h), lookup_map_eq]

theorem signature?_listing (h : (builtinNames ++ routines.map (·.name)).Nodup) :
    (listing globals routines checked).signature? name =
      declaredSignature? (builtins ++ routines.map (·.signature)) name := by
  have hkeys : ((builtins ++ routines.map (·.signature)).map (·.name)).Nodup := by
    rw [map_name_signatures]
    exact h
  unfold signature? listing declaredSignature?
  rw [Table.get?_ofList (by rw [List.map_map]; exact hkeys), lookup_map_eq, Option.map_id']

theorem locals?_listing (h : (checked.map (·.name)).Nodup) :
    (listing globals routines checked).locals? name =
      (checked.find? fun routine => decide (routine.name = name)).map (·.table) := by
  unfold locals? listing
  rw [Table.get?_ofList (by rw [List.map_map]; exact h), lookup_map_eq]

theorem declareGlobal_listing (d : Declaration) :
    (listing globals [] []).declareGlobal d =
      (settle [.global (builtinNames ++ names globals) d.name]).map fun _ =>
        listing (globals ++ [d]) [] [] := by
  -- an entry that is added is the one of a declaration behind the others
  have hadd : (⟨(listing globals [] []).globals.insert d.name d.ty,
      (listing globals [] []).signatures, (listing globals [] []).locals⟩ : Registry) =
        listing (globals ++ [d]) [] [] := by
    simp [listing]
  have htaken : ((listing globals [] []).globals.contains d.name ||
      (listing globals [] []).signatures.contains d.name) = true ↔
        d.name ∈ builtinNames ++ names globals := by
    simp [or_comm]
  unfold declareGlobal
  rw [hadd]
  exact settle_refusal (listing (globals ++ [d]) [] []) rfl htaken

theorem declareRoutine_listing (routine : Routine) :
    (listing globals routines checked).declareRoutine routine.signature =
      (settle [.routine (names globals) (builtinNames ++ routines.map (·.name)) routine.name]).map
        fun _ => listing globals (routines ++ [routine]) checked := by
  have hentries :
      ((builtins ++ (routines ++ [routine]).map (·.signature)).map fun s => (s.name, s)) =
        ((builtins ++ routines.map (·.signature)).map fun s => (s.name, s)) ++
          [(routine.signature.name, routine.signature)] := by
    simp
  have hadd : (⟨(listing globals routines checked).globals,
      (listing globals routines checked).signatures.insert routine.signature.name routine.signature,
      (listing globals routines checked).locals⟩ : Registry) =
        listing globals (routines ++ [routine]) checked := by
    unfold listing
    rw [hentries, Table.ofList_concat]
  unfold declareRoutine
  rw [hadd]
  exact settle_refusals (listing globals (routines ++ [routine]) checked) rfl
    contains_globals_listing_iff contains_signatures_listing_iff

theorem insertLocals_listing (routine : Routine) :
    (listing globals routines checked).insertLocals routine.name routine.table =
      listing globals routines (checked ++ [routine]) := by
  simp [insertLocals, listing]

theorem addParameter_listing (owner : String) (parameters : List Declaration) (d : Declaration) :
    (listing globals routines checked).addParameter owner (localListing parameters []) d =
      (settle [.parameter (names globals) (names parameters) owner d.name]).map fun _ =>
        localListing (parameters ++ [d]) [] := by
  have hadd : (localListing parameters []).insert d.name ⟨d.ty, .parameter⟩ =
      localListing (parameters ++ [d]) [] := by
    simp [localListing, symbols]
  have hknown : (localListing parameters []).contains d.name = true ↔ d.name ∈ names parameters := by
    simp
  unfold addParameter
  rw [hadd]
  exact settle_refusals (localListing (parameters ++ [d]) []) rfl contains_globals_listing_iff hknown

theorem addLocal_listing (owner : String) (parameters locals : List Declaration) (d : Declaration) :
    (listing globals routines checked).addLocal owner (localListing parameters locals) d =
      (settle [.localVar (names globals) (names (parameters ++ locals)) owner d.name]).map fun _ =>
        localListing parameters (locals ++ [d]) := by
  have hadd : (localListing parameters locals).insert d.name ⟨d.ty, .var⟩ =
      localListing parameters (locals ++ [d]) := by
    unfold localListing symbols
    rw [List.map_append, List.map_singleton, ← List.append_assoc, Table.ofList_concat]
  unfold addLocal
  rw [hadd]
  exact settle_refusals (localListing parameters (locals ++ [d])) rfl contains_globals_listing_iff
    contains_localListing_iff

/-- The local names of a routine settle the obligations of its header. -/
theorem localsOf_listing (h : Header) :
    (listing globals routines checked).localsOf h =
      (settle (h.obligations globals)).map fun _ => h.table := by
  have hparameters : h.parameters.foldlM ((listing globals routines checked).addParameter h.name)
      .empty = (settle (h.parameterObligations globals)).map fun _ =>
        localListing h.parameters [] :=
    foldlM_settle (fun earlier => localListing earlier []) (fun _ => True)
      (fun front d _ => addParameter_listing h.name front d) (fun _ _ _ _ => trivial) h.parameters
      trivial
  have hlocals : h.locals.foldlM ((listing globals routines checked).addLocal h.name)
      (localListing h.parameters []) = (settle (h.localObligations globals)).map fun _ => h.table :=
    foldlM_settle (localListing h.parameters) (fun _ => True)
      (fun front d _ => addLocal_listing h.name h.parameters front d) (fun _ _ _ _ => trivial)
      h.locals trivial
  unfold localsOf Header.obligations
  rw [settle_append, hparameters]
  cases settle (h.parameterObligations globals) with
  | error e => rfl
  | ok u => exact hlocals

end Registry

end StaticCheck
