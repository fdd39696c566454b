import StaticCheck.Proofs.Analysis.ClosedForm
import StaticCheck.Proofs.Registry.Clash
import StaticCheck.Registry.Edit

/-!
# The local names of a routine

Whatever a registry holds, the local names of a routine are collected if and only if they are
distinct and none of them is a global. The table then has one entry for each of them and no others.
Otherwise the violation is that of the first name, parameters before local variables, that is a
global or repeats an earlier one: `Registry.result_collectLocals_iff`. The signatures of the registry
do not count.

Parameters and local variables are added by the same step (`Registry.addSymbol`), which differs for
the two kinds in the wording of its refusal only. So the two lists are one list to it,
`Header.localSymbols`, and the step takes in its names one by one (`Registry.admits_addSymbol`).
-/

namespace StaticCheck

/-- The violation of a local name that is taken. That it is the name of a global goes before that it
is repeated. -/
def LocalKind.refusal (kind : LocalKind) (routine name : String) (isGlobal : Bool) : Violation :=
  match kind, isGlobal with
  | parameter, true => .parameterTakesGlobal routine name
  | parameter, false => .duplicateParameter routine name
  | var, true => .localTakesGlobal routine name
  | var, false => .duplicateLocal routine name

namespace Header

/-- The local names with what they stand for, parameters first. -/
def localSymbols (h : Header) : List (String × LocalSymbol) :=
  symbols .parameter h.parameters ++ symbols .var h.locals

variable {h : Header}

@[simp]
theorem map_fst_localSymbols (h : Header) :
    h.localSymbols.map Prod.fst = names (h.parameters ++ h.locals) := by
  simp [localSymbols]

/-- The local table of a routine is the only one of its closed form. -/
theorem table_eq_of_closedForm {table : LocalTable} {globals : Table VarTy}
    (hdistinct : (names (h.parameters ++ h.locals)).Nodup) (htable : table.ClosedForm h globals) :
    h.table = table := by
  ext name symbol
  rw [get?_table_iff hdistinct]
  obtain ⟨ty, kind⟩ := symbol
  cases kind with
  | parameter =>
    rw [htable.parameters]
    simp
  | var =>
    rw [htable.locals]
    simp

end Header

namespace Registry

/-- Adds a local name of `routine` to those collected so far. -/
def addSymbol (r : Registry) (routine : String) (table : LocalTable)
    (entry : String × LocalSymbol) : Except Violation LocalTable :=
  if r.globals.contains entry.1 || table.contains entry.1 then
    .error (entry.2.kind.refusal routine entry.1 (r.globals.contains entry.1))
  else
    .ok (table.insert entry.1 entry.2)

variable {r : Registry} {h : Header}

theorem addParameter_eq (routine : String) (table : LocalTable) (p : Declaration) :
    r.addParameter routine table p = r.addSymbol routine table (p.name, ⟨p.ty, .parameter⟩) := by
  unfold addParameter addSymbol LocalKind.refusal
  cases r.globals.contains p.name <;> cases table.contains p.name <;> rfl

theorem addLocal_eq (routine : String) (table : LocalTable) (d : Declaration) :
    r.addLocal routine table d = r.addSymbol routine table (d.name, ⟨d.ty, .var⟩) := by
  unfold addLocal addSymbol LocalKind.refusal
  cases r.globals.contains d.name <;> cases table.contains d.name <;> rfl

/-- The two lists are taken in as one. -/
theorem localsOf_eq_foldlM (r : Registry) (h : Header) :
    r.localsOf h = h.localSymbols.foldlM (r.addSymbol h.name) .empty := by
  unfold localsOf Header.localSymbols symbols
  simp only [List.foldlM_append, List.foldlM_map, ← addParameter_eq, ← addLocal_eq]

@[simp]
theorem result_collectLocals (r : Registry) (h : Header) :
    (r.collectLocals h).result = r.localsOf h := by
  unfold collectLocals
  cases r.localsOf h <;> simp

/-- A local name is taken if it is a global or in the table already. -/
theorem admits_addSymbol (r : Registry) (routine : String) :
    Admits Prod.fst (fun table name => r.globals.contains name = true ∨ table.contains name = true)
      (fun table entry => table.insert entry.1 entry.2)
      (fun _ entry => entry.2.kind.refusal routine entry.1 (r.globals.contains entry.1))
      (r.addSymbol routine) where
  added := by
    intro table entry hnew
    exact if_neg fun hor => hnew (Bool.or_eq_true_iff.mp hor)
  refused := by
    intro table entry htaken
    exact if_pos (Bool.or_eq_true_iff.mpr htaken)
  taken_add := by
    intro table entry name
    simp [or_assoc, or_comm (a := name = _)]

/-- Nothing is in the table at first, so only globals are taken from the outset. -/
theorem taken_empty :
    (fun name => r.globals.contains name = true ∨ (Table.empty : LocalTable).contains name = true) =
      fun name => r.globals.contains name = true :=
  funext fun _ => by simp

theorem localsOf_eq_ok_iff {table : LocalTable} :
    r.localsOf h = .ok table ↔
      ((names (h.parameters ++ h.locals)).Nodup ∧
        ∀ name ∈ names (h.parameters ++ h.locals), ¬r.globals.contains name = true) ∧
          h.table = table := by
  rw [localsOf_eq_foldlM, (admits_addSymbol r h.name).foldlM_eq_ok_iff, taken_empty,
    forall_not_clashAt_iff, Header.map_fst_localSymbols]
  rfl

theorem localsOf_eq_error_iff {e : Violation} :
    r.localsOf h = .error e ↔
      ∃ k entry, FirstClash (fun name => r.globals.contains name = true)
        (names (h.parameters ++ h.locals)) k ∧ h.localSymbols[k]? = some entry ∧
          entry.2.kind.refusal h.name entry.1 (r.globals.contains entry.1) = e := by
  rw [localsOf_eq_foldlM, (admits_addSymbol r h.name).foldlM_eq_error_iff, taken_empty,
    Header.map_fst_localSymbols]

/-- The local names of a routine are collected exactly: all of them if they are distinct and none is
a global, and otherwise up to the first one that is a global or repeats an earlier one. -/
theorem result_collectLocals_iff (r : Registry) (h : Header) :
    (∀ table, (r.collectLocals h).result = .ok table ↔
      (names (h.parameters ++ h.locals)).Nodup ∧
        (∀ d ∈ h.parameters ++ h.locals, r.global? d.name = none) ∧
          table.ClosedForm h r.globals) ∧
    ∀ e, (r.collectLocals h).result = .error e ↔
      ∃ k name symbol, FirstClash (fun name => r.globals.contains name = true)
        (names (h.parameters ++ h.locals)) k ∧ h.localSymbols[k]? = some (name, symbol) ∧
          e = symbol.kind.refusal h.name name (r.globals.contains name) := by
  rw [result_collectLocals]
  constructor
  · intro table
    rw [localsOf_eq_ok_iff]
    have hfree : (∀ name ∈ names (h.parameters ++ h.locals), ¬r.globals.contains name = true) ↔
        ∀ d ∈ h.parameters ++ h.locals, r.globals.contains d.name = false := by
      unfold names
      rw [List.forall_mem_map]
      simp only [Bool.not_eq_true]
    have hglobal : (∀ d ∈ h.parameters ++ h.locals, r.global? d.name = none) ↔
        ∀ d ∈ h.parameters ++ h.locals, r.globals.contains d.name = false :=
      forall₂_congr fun _ _ => Table.contains_eq_false_iff.symm
    rw [hfree, hglobal]
    constructor
    · rintro ⟨⟨hdistinct, hfresh⟩, rfl⟩
      exact ⟨hdistinct, hfresh, Header.closedForm_table hdistinct hfresh⟩
    · rintro ⟨hdistinct, hfresh, htable⟩
      exact ⟨⟨hdistinct, hfresh⟩, Header.table_eq_of_closedForm hdistinct htable⟩
  · intro e
    rw [localsOf_eq_error_iff]
    constructor
    · rintro ⟨k, ⟨name, symbol⟩, hk, hat, rfl⟩
      exact ⟨k, name, symbol, hk, hat, rfl⟩
    · rintro ⟨k, name, symbol, hk, hat, rfl⟩
      exact ⟨k, (name, symbol), hk, hat, rfl⟩

/-- A parameter may have the name of a routine; a local variable may not have that of a parameter. -/
example : (initial.collectLocals ⟨"f", [⟨"x", .integer⟩, ⟨"echo", .string⟩], none,
    [⟨"y", .float⟩, ⟨"x", .string⟩]⟩).result = .error (.duplicateLocal "f" "x") := by
  rfl

end Registry

end StaticCheck
