import StaticCheck.Proofs.Tree.Grammar

/-!
# The trees that are accepted

> `exists_toProgram_iff_isProgram`: a tree is read as a program if and only if it fits the grammar.

The grammar puts the children of an item together from lists, and the reader takes them apart by
their kinds. Since no statement is of a kind that a header has, there is one way to do so
(`areRoutine_iff`, `isMain_iff`), and an item fits the grammar if and only if the parts that the
reader finds do.
-/

namespace StaticCheck

namespace Node

/-! ## Headers -/

@[simp]
theorem readTy_eq_ok_iff {name : String} {ty : Ty} :
    readTy name = .ok ty ↔ Ty.ofName? name = some ty := by
  unfold readTy
  cases Ty.ofName? name with
  | none => exact iff_of_false nofun nofun
  | some found => simp

/-- A declaration is the name and the type that its node states. -/
theorem toDeclaration_eq_ok_iff {node : Node} {d : Declaration} :
    node.toDeclaration = .ok d ↔ node.attribute? "name" = some d.name ∧
      ∃ tyName, node.attribute? "type" = some tyName ∧ Ty.ofName? tyName = some (.var d.ty) := by
  unfold toDeclaration
  constructor
  · intro h
    obtain ⟨name, hname, hrest⟩ := bind_eq_ok_iff.mp h
    obtain ⟨tyName, htyName, hrest⟩ := bind_eq_ok_iff.mp hrest
    obtain ⟨ty, hty, hd⟩ := bind_eq_ok_iff.mp hrest
    cases ty with
    | none => cases hd
    | var ty =>
      cases hd
      exact ⟨require_eq_ok_iff.mp hname, tyName, require_eq_ok_iff.mp htyName,
        readTy_eq_ok_iff.mp hty⟩
  · intro h
    obtain ⟨hname, tyName, htyName, hty⟩ := h
    refine bind_eq_ok_iff.mpr ⟨d.name, require_eq_ok_iff.mpr hname, ?_⟩
    refine bind_eq_ok_iff.mpr ⟨tyName, require_eq_ok_iff.mpr htyName, ?_⟩
    exact bind_eq_ok_iff.mpr ⟨.var d.ty, readTy_eq_ok_iff.mpr hty, rfl⟩

theorem exists_toDeclaration_iff {node : Node} :
    (∃ d, node.toDeclaration = .ok d) ↔ node.StatesVariable := by
  unfold StatesVariable
  constructor
  · intro h
    obtain ⟨d, hd⟩ := h
    obtain ⟨hname, tyName, htyName, hty⟩ := toDeclaration_eq_ok_iff.mp hd
    exact ⟨⟨d.name, hname⟩, tyName, exists_ofName?_var_iff.mp ⟨d.ty, hty⟩, htyName⟩
  · intro h
    obtain ⟨⟨name, hname⟩, tyName, hmem, htyName⟩ := h
    obtain ⟨ty, hty⟩ := exists_ofName?_var_iff.mpr hmem
    exact ⟨⟨name, ty⟩, toDeclaration_eq_ok_iff.mpr ⟨hname, tyName, htyName, hty⟩⟩

theorem exists_toDeclarations_iff {nodes : List Node} :
    (∃ ds, nodes.mapM toDeclaration = .ok ds) ↔ ∀ n ∈ nodes, n.StatesVariable := by
  rw [exists_mapM_eq_ok_iff]
  exact forall₂_congr fun _ _ => exists_toDeclaration_iff

theorem returnTyName_eq_ok_iff {node : Node} {stated : Option Node} {name : String} :
    node.returnTyName stated = .ok name ↔
      node.attribute? "returnType" = some name ∨ node.attribute? "returnType" = none ∧
        ∃ v, stated = some v ∧ v.attribute? "type" = some name := by
  unfold returnTyName
  cases node.attribute? "returnType" with
  | some found => simp
  | none =>
    cases stated with
    | none => simp
    | some v => simp

theorem exists_toReturnTy_iff {node : Node} {stated : Option Node} :
    (∃ ty, toReturnTy .function node stated = .ok ty) ↔ node.NamesReturnTy stated := by
  have hreads : (∃ ty, toReturnTy .function node stated = .ok ty) ↔
      ∃ name ∈ tyNames, node.returnTyName stated = .ok name := by
    constructor
    · intro h
      obtain ⟨ty, hty⟩ := h
      obtain ⟨name, hname, hrest⟩ := bind_eq_ok_iff.mp hty
      obtain ⟨found, hfound, -⟩ := bind_eq_ok_iff.mp hrest
      exact ⟨name, exists_ofName?_iff.mp ⟨found, readTy_eq_ok_iff.mp hfound⟩, hname⟩
    · intro h
      obtain ⟨name, hmem, hname⟩ := h
      obtain ⟨ty, hty⟩ := exists_ofName?_iff.mpr hmem
      refine ⟨some ty, bind_eq_ok_iff.mpr ⟨name, hname, ?_⟩⟩
      exact bind_eq_ok_iff.mpr ⟨ty, readTy_eq_ok_iff.mpr hty, rfl⟩
  rw [hreads]
  unfold NamesReturnTy
  constructor
  · intro h
    obtain ⟨name, hmem, hname⟩ := h
    rcases returnTyName_eq_ok_iff.mp hname with hattribute | ⟨hnone, v, hv, htype⟩
    · exact Or.inl ⟨name, hmem, hattribute⟩
    · exact Or.inr ⟨hnone, v, hv, name, hmem, htype⟩
  · intro h
    rcases h with ⟨name, hmem, hattribute⟩ | ⟨hnone, v, hv, name, hmem, htype⟩
    · exact ⟨name, hmem, returnTyName_eq_ok_iff.mpr (Or.inl hattribute)⟩
    · exact ⟨name, hmem, returnTyName_eq_ok_iff.mpr (Or.inr ⟨hnone, v, hv, htype⟩)⟩

/-- The parts of a routine fit the grammar, whatever its return type is. -/
structure PartsFit (parts : RoutineParts) : Prop where
  parameters : ∀ n ∈ parts.parameters, n.StatesVariable
  locals : ∀ n ∈ parts.locals, n.StatesVariable
  statements : ∀ n ∈ parts.statements, n.IsStmt

/-- Nodes are the children of a routine if the parts that they are taken for fit. -/
theorem areRoutine_iff (kind : RoutineKind) {children : List Node} {stated : Option Node}
    (hprocedure : kind = .procedure → stated = none) :
    AreRoutine children stated ↔
      (kind = .function → stated = (RoutineParts.ofChildren kind children).returnTy) ∧
        PartsFit (RoutineParts.ofChildren kind children) := by
  constructor
  · intro h
    obtain ⟨identifier, parameters, locals, statements, hchildren, hidentifier, hparameters,
      hstated, hlocals, hstatements⟩ := h
    have hparts := RoutineParts.ofChildren_append hidentifier (fun n hn => (hparameters n hn).kind)
      hstated hprocedure (fun n hn => (hlocals n hn).kind) (fun n hn => (hstatements n hn).kind_mem)
    rw [hchildren, hparts]
    exact ⟨fun _ => rfl, fun n hn => (hparameters n hn).states, fun n hn => (hlocals n hn).states,
      hstatements⟩
  · intro h
    obtain ⟨hfunction, hfit⟩ := h
    obtain ⟨identifier, found, hchildren, hidentifier, hfound, hreturn, hnone⟩ :=
      RoutineParts.exists_of_ofChildren kind children
    have hsame : found = stated := by
      cases kind with
      | function => exact (hreturn rfl).trans (hfunction rfl).symm
      | procedure => exact (hnone rfl).trans (hprocedure rfl).symm
    rw [← hsame]
    refine ⟨identifier, _, _, _, hchildren, hidentifier, ?_, hfound, ?_, hfit.statements⟩
    · exact fun n hn => ⟨kind_of_mem_takeWhile hn, hfit.parameters n hn⟩
    · exact fun n hn => ⟨kind_of_mem_takeWhile hn, hfit.locals n hn⟩

/-! ## Items and programs -/

theorem exists_toRoutine_iff {kind : RoutineKind} {node : Node} :
    (∃ routine, (node.toRoutine kind).result = .ok routine) ↔
      node.Has (nameKey kind) ∧ PartsFit (RoutineParts.ofChildren kind node.children) ∧
        ∃ ty, toReturnTy kind node (RoutineParts.ofChildren kind node.children).returnTy =
          .ok ty := by
  constructor
  · intro h
    obtain ⟨routine, hroutine⟩ := h
    obtain ⟨header, hheader, hrest⟩ := Logged.bind_eq_ok_iff.mp hroutine
    obtain ⟨_, -, hrest⟩ := Logged.bind_eq_ok_iff.mp hrest
    obtain ⟨body, hbody, -⟩ := Logged.bind_eq_ok_iff.mp hrest
    obtain ⟨name, hname, hrest⟩ := bind_eq_ok_iff.mp hheader
    obtain ⟨parameters, hparameters, hrest⟩ := bind_eq_ok_iff.mp hrest
    obtain ⟨ty, hty, hrest⟩ := bind_eq_ok_iff.mp hrest
    obtain ⟨locals, hlocals, -⟩ := bind_eq_ok_iff.mp hrest
    refine ⟨exists_require_iff.mp ⟨name, hname⟩, ⟨?_, ?_, ?_⟩, ty, hty⟩
    · exact exists_toDeclarations_iff.mp ⟨parameters, hparameters⟩
    · exact exists_toDeclarations_iff.mp ⟨locals, hlocals⟩
    · exact exists_stmts_iff_isStmt.mp ⟨body, hbody⟩
  · intro h
    obtain ⟨hname, hfit, ty, hty⟩ := h
    obtain ⟨name, hname⟩ := exists_require_iff.mpr hname
    obtain ⟨parameters, hparameters⟩ := exists_toDeclarations_iff.mpr hfit.parameters
    obtain ⟨locals, hlocals⟩ := exists_toDeclarations_iff.mpr hfit.locals
    obtain ⟨body, hbody⟩ := exists_stmts_iff_isStmt.mpr hfit.statements
    have hheader : node.toHeader kind (RoutineParts.ofChildren kind node.children) =
        .ok ⟨name, parameters, ty, locals⟩ := by
      refine bind_eq_ok_iff.mpr ⟨name, hname, bind_eq_ok_iff.mpr ⟨parameters, hparameters, ?_⟩⟩
      exact bind_eq_ok_iff.mpr ⟨ty, hty, bind_eq_ok_iff.mpr ⟨locals, hlocals, rfl⟩⟩
    refine ⟨⟨⟨name, parameters, ty, locals⟩, body⟩, ?_⟩
    refine Logged.bind_eq_ok_iff.mpr ⟨_, hheader, Logged.bind_eq_ok_iff.mpr ⟨(), rfl, ?_⟩⟩
    exact Logged.bind_eq_ok_iff.mpr ⟨body, hbody, rfl⟩

theorem isFunction_iff {node : Node} (hkind : node.kind = .functionDef) :
    node.IsFunction ↔ ∃ routine, (node.toRoutine .function).result = .ok routine := by
  rw [exists_toRoutine_iff, exists_toReturnTy_iff]
  unfold IsFunction
  rw [and_iff_right hkind]
  refine and_congr_right fun _ => ?_
  constructor
  · intro h
    obtain ⟨stated, hchildren, hreturn⟩ := h
    obtain ⟨hstated, hfit⟩ := (areRoutine_iff .function nofun).mp hchildren
    exact ⟨hfit, hstated rfl ▸ hreturn⟩
  · intro h
    obtain ⟨hfit, hreturn⟩ := h
    exact ⟨_, (areRoutine_iff .function nofun).mpr ⟨fun _ => rfl, hfit⟩, hreturn⟩

theorem isProcedure_iff {node : Node} (hkind : node.kind = .procedureDef) :
    node.IsProcedure ↔ ∃ routine, (node.toRoutine .procedure).result = .ok routine := by
  rw [exists_toRoutine_iff]
  unfold IsProcedure
  rw [and_iff_right hkind, areRoutine_iff .procedure fun _ => rfl]
  refine and_congr_right fun _ => ?_
  constructor
  · intro h
    exact ⟨h.2, none, rfl⟩
  · intro h
    exact ⟨nofun, h.1⟩

theorem isMain_iff {node : Node} (hkind : node.kind = .mainProc) :
    node.IsMain ↔ ∃ main, node.toMain = .ok main := by
  have hreads : (∃ main, node.toMain = .ok main) ↔
      (∀ n ∈ node.children.takeWhile (·.is .declaration), n.StatesVariable) ∧
        ∀ n ∈ node.children.dropWhile (·.is .declaration), n.IsStmt := by
    rw [← exists_toDeclarations_iff, ← exists_stmts_iff_isStmt]
    constructor
    · intro h
      obtain ⟨main, hmain⟩ := h
      obtain ⟨declarations, hdeclarations, hrest⟩ := bind_eq_ok_iff.mp hmain
      obtain ⟨body, hbody, -⟩ := bind_eq_ok_iff.mp hrest
      exact ⟨⟨declarations, hdeclarations⟩, body, hbody⟩
    · intro h
      obtain ⟨⟨declarations, hdeclarations⟩, body, hbody⟩ := h
      refine ⟨⟨declarations, body⟩, bind_eq_ok_iff.mpr ⟨declarations, hdeclarations, ?_⟩⟩
      exact bind_eq_ok_iff.mpr ⟨body, hbody, rfl⟩
  rw [hreads]
  unfold IsMain
  rw [and_iff_right hkind]
  constructor
  · intro h
    obtain ⟨declarations, statements, hchildren, hdeclarations, hstatements⟩ := h
    have hfront : ∀ n ∈ declarations, n.kind = .declaration := fun n hn => (hdeclarations n hn).kind
    have hbehind : ∀ n ∈ statements, n.kind ≠ .declaration :=
      RoutineParts.forall_kind_ne_of_mem (fun n hn => (hstatements n hn).kind_mem) (by decide)
    rw [hchildren, takeWhile_append_of_kind hfront hbehind, dropWhile_append_of_kind hfront hbehind]
    exact ⟨fun n hn => (hdeclarations n hn).states, hstatements⟩
  · intro h
    refine ⟨_, _, List.takeWhile_append_dropWhile.symm, fun n hn => ?_, h.2⟩
    exact ⟨kind_of_mem_takeWhile hn, h.1 n hn⟩

/-- An item is of one of three kinds, and the kind tells which item it is. -/
theorem isItem_iff {node : Node} :
    node.IsItem ↔
      node.kind = .mainProc ∧ (∃ main, node.toMain = .ok main) ∨
      node.kind = .functionDef ∧ (∃ routine, (node.toRoutine .function).result = .ok routine) ∨
      node.kind = .procedureDef ∧
        (∃ routine, (node.toRoutine .procedure).result = .ok routine) := by
  unfold IsItem
  refine or_congr ?_ (or_congr ?_ ?_)
  · exact ⟨fun h => ⟨h.1, (isMain_iff h.1).mp h⟩, fun h => (isMain_iff h.1).mpr h.2⟩
  · exact ⟨fun h => ⟨h.1, (isFunction_iff h.1).mp h⟩, fun h => (isFunction_iff h.1).mpr h.2⟩
  · exact ⟨fun h => ⟨h.1, (isProcedure_iff h.1).mp h⟩, fun h => (isProcedure_iff h.1).mpr h.2⟩

/-- How many main procedures may still come. -/
def mainsLeft (mainSeen : Bool) : Nat :=
  if mainSeen then 0 else 1

/-- The first item is read and the others are. -/
theorem exists_first_iff {α : Type} (x : Logged Malformation α)
    (others : Logged Malformation (List Item)) (item : α → Item) :
    (∃ items, (do let a ← x; let items ← others; return item a :: items :
        Logged Malformation (List Item)).result = .ok items) ↔
      (∃ a, x.result = .ok a) ∧ ∃ items, others.result = .ok items := by
  constructor
  · intro h
    obtain ⟨items, hitems⟩ := h
    obtain ⟨a, ha, hrest⟩ := Logged.bind_eq_ok_iff.mp hitems
    obtain ⟨rest, hrest, -⟩ := Logged.bind_eq_ok_iff.mp hrest
    exact ⟨⟨a, ha⟩, rest, hrest⟩
  · intro h
    obtain ⟨⟨a, ha⟩, rest, hrest⟩ := h
    refine ⟨item a :: rest, Logged.bind_eq_ok_iff.mpr ⟨a, ha, ?_⟩⟩
    exact Logged.bind_eq_ok_iff.mpr ⟨rest, hrest, rfl⟩

theorem countP_main_cons {node : Node} {nodes : List Node} :
    (node :: nodes).countP (·.is .mainProc) =
      nodes.countP (·.is .mainProc) + if node.kind = .mainProc then 1 else 0 := by
  simp [List.countP_cons]

/-- Nodes are read as items if each of them is an item and no further main procedure is among them
than may still come. -/
theorem exists_toItems_iff {nodes : List Node} :
    ∀ {mainSeen : Bool}, (∃ items, (toItems mainSeen nodes).result = .ok items) ↔
      (∀ n ∈ nodes, n.IsItem) ∧ nodes.countP (·.is .mainProc) ≤ mainsLeft mainSeen := by
  induction nodes with
  | nil =>
    intro mainSeen
    exact iff_of_true ⟨[], rfl⟩ ⟨nofun, Nat.zero_le _⟩
  | cons node nodes ih =>
    intro mainSeen
    rw [List.forall_mem_cons, isItem_iff, countP_main_cons]
    unfold toItems
    split
    · next hkind =>
      cases mainSeen with
      | true =>
        -- a second main procedure is refused, whatever it looks like
        refine iff_of_false nofun fun h => ?_
        rw [if_pos hkind] at h
        exact Nat.not_succ_le_zero _ h.2
      | false =>
        refine (exists_first_iff (liftM node.toMain) (toItems true nodes) .main).trans ?_
        rw [ih, hkind, if_pos rfl]
        simp only [reduceCtorEq, false_and, or_false, true_and, and_assoc, mainsLeft]
        exact and_congr_right fun _ => and_congr_right fun _ => Nat.succ_le_succ_iff.symm
    · next hkind =>
      refine (exists_first_iff _ _ .routine).trans ?_
      rw [ih, hkind, if_neg nofun]
      simp only [reduceCtorEq, false_and, or_false, false_or, true_and, and_assoc, Nat.add_zero]
    · next hkind =>
      refine (exists_first_iff _ _ .routine).trans ?_
      rw [ih, hkind, if_neg nofun]
      simp only [reduceCtorEq, false_and, false_or, true_and, and_assoc, Nat.add_zero]
    · next hmain hfunction hprocedure =>
      refine iff_of_false nofun fun h => ?_
      rcases h.1.1 with hkind | hkind | hkind
      · exact hmain hkind.1
      · exact hfunction hkind.1
      · exact hprocedure hkind.1

/-- The program of a tree has the items that the children of the root stand for. -/
theorem toProgram_eq_ok_iff {root : Node} {p : Program} :
    root.toProgram.result = .ok p ↔
      root.kind = .program ∧ (toItems false root.children).result = .ok p.items := by
  unfold toProgram
  by_cases hkind : root.is .program
  · rw [if_pos hkind, and_iff_right (is_iff.mp hkind)]
    constructor
    · intro h
      obtain ⟨items, hitems, hp⟩ := Logged.bind_eq_ok_iff.mp h
      cases hp
      exact hitems
    · intro h
      exact Logged.bind_eq_ok_iff.mpr ⟨p.items, h, rfl⟩
  · rw [if_neg hkind]
    exact iff_of_false nofun fun h => hkind (is_iff.mpr h.1)

/-- A tree is read as a program if and only if it fits the grammar. -/
theorem exists_toProgram_iff_isProgram (root : Node) :
    (∃ p, root.toProgram.result = .ok p) ↔ root.IsProgram := by
  have hitems : (∃ items, (toItems false root.children).result = .ok items) ↔
      (∀ n ∈ root.children, n.IsItem) ∧ root.children.countP (·.is .mainProc) ≤ 1 :=
    exists_toItems_iff
  constructor
  · intro h
    obtain ⟨p, hp⟩ := h
    obtain ⟨hkind, hread⟩ := toProgram_eq_ok_iff.mp hp
    obtain ⟨hall, hone⟩ := hitems.mp ⟨p.items, hread⟩
    exact ⟨hkind, hall, hone⟩
  · intro h
    obtain ⟨items, hread⟩ := hitems.mpr ⟨h.items, h.one_main⟩
    exact ⟨⟨items⟩, toProgram_eq_ok_iff.mpr ⟨h.kind, hread⟩⟩

end Node

end StaticCheck
