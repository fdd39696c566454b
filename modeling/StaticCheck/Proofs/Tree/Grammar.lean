import StaticCheck.Proofs.Tree.Layout
import StaticCheck.Proofs.Tree.Site

/-!
# The grammar of syntax trees

A syntax tree may be built of any nodes; only some trees are those of a program. The grammar says
which, in terms of kinds, attributes and children alone: `IsExpr`, `IsStmt`, the headers of items
and `IsProgram`. Nothing that is read off a tree occurs in it.

What is refused wherever it stands in a wrong place (a declaration behind the statements, the node
of a return type in a procedure, a second identifier) is no statement and no expression, so it needs
no rule of its own.

This module ties the grammar of bodies to its readers: `exists_toExpr_iff_isExpr` and
`exists_stmts_iff_isStmt`. From the grammar to the reader the proof is by induction on the
derivation, and back it is by induction on the tree. Headers and programs are in
`StaticCheck.Proofs.Tree.Acceptance`.
-/

namespace StaticCheck

/-- The names of the types of variables. -/
def varTyNames : List String :=
  ["Integer", "String", "Boolean", "Float"]

/-- The names of types, of which the last two are those of procedures. -/
def tyNames : List String :=
  varTyNames ++ ["NULL", "None"]

namespace Node

/-- The node has the attribute. -/
def Has (node : Node) (key : String) : Prop :=
  ∃ value, node.attribute? key = some value

/-- The node names a callee: by its attribute, or on the first identifier among its children. -/
def NamesCallee (node : Node) : Prop :=
  node.Has "funcName" ∨ ∃ id, node.children.find? (·.is .id) = some id ∧ id.Has "name"

/-- The node is not of a kind of its own among expressions, so that it is a literal or is made of
its operands. -/
structure Composite (node : Node) : Prop where
  not_call : node.kind ≠ .functionCall
  not_id : node.kind ≠ .id
  not_element : node.kind ≠ .arrayElement

/-- The node fits the grammar of expressions. -/
inductive IsExpr : Node → Prop
  /-- A call names its callee, and its other children are its arguments. -/
  | call {node : Node} (kind : node.kind = .functionCall) (callee : node.NamesCallee)
      (arguments : ∀ c ∈ without .id node.children, IsExpr c) : IsExpr node
  | var {node : Node} (kind : node.kind = .id) (name : node.Has "name") : IsExpr node
  /-- An element of an array has an index in front of all children but identifiers. -/
  | element {node first : Node} (kind : node.kind = .arrayElement) (name : node.Has "name")
      (front : (without .id node.children).head? = some first) (index : IsExpr first) : IsExpr node
  | literal {node : Node} (composite : node.Composite) (value : node.Has "value") : IsExpr node
  /-- At least one child is an operand, and all are but comparison operators. -/
  | operands {node : Node} (composite : node.Composite)
      (some_operand : without .comparisonOperator node.children ≠ [])
      (operands : ∀ c ∈ without .comparisonOperator node.children, IsExpr c) : IsExpr node

/-- The node fits the grammar of statements. -/
inductive IsStmt : Node → Prop
  | group {node : Node} (kind : node.kind = .stmtList ∨ node.kind = .stmt)
      (statements : ∀ c ∈ node.children, IsStmt c) : IsStmt node
  /-- Of the children but identifiers the last is the value, and the first of several the index. -/
  | assignment {node last : Node} (kind : node.kind = .assignment) (target : node.Has "name")
      (back : (without .id node.children).getLast? = some last) (value : last.IsExpr)
      (index : 2 ≤ (without .id node.children).length →
        ∃ first, (without .id node.children).head? = some first ∧ first.IsExpr) : IsStmt node
  | call {node : Node} (kind : node.kind = .functionCall) (call : node.IsExpr) : IsStmt node
  | branch {node condition : Node} {blocks : List Node} (kind : node.kind = .ifStmt)
      (children : node.children = condition :: blocks) (condition : condition.IsExpr)
      (two : blocks.length ≤ 2) (statements : ∀ b ∈ blocks, IsStmt b) : IsStmt node
  | loop {node condition : Node} {body : List Node} (kind : node.kind = .whileStmt)
      (children : node.children = condition :: body) (condition : condition.IsExpr)
      (statements : ∀ s ∈ body, IsStmt s) : IsStmt node

/-- The node states a name and the type of a variable. -/
def StatesVariable (node : Node) : Prop :=
  node.Has "name" ∧ ∃ name ∈ varTyNames, node.attribute? "type" = some name

/-- The node is a declaration in a header. -/
structure IsDeclaration (node : Node) : Prop where
  kind : node.kind = .declaration
  states : node.StatesVariable

/-- The node is a parameter in a header. -/
structure IsParameter (node : Node) : Prop where
  kind : node.kind = .param
  states : node.StatesVariable

/-- The node is a main procedure: declarations, then statements. -/
def IsMain (node : Node) : Prop :=
  node.kind = .mainProc ∧ ∃ declarations statements : List Node,
    node.children = declarations ++ statements ∧ (∀ d ∈ declarations, d.IsDeclaration) ∧
      ∀ s ∈ statements, s.IsStmt

/-- The nodes are the children of a routine: an identifier or none, parameters, the node of a return
type if there is one, declarations, statements. -/
def AreRoutine (children : List Node) (stated : Option Node) : Prop :=
  ∃ (identifier : Option Node) (parameters locals statements : List Node),
    children = identifier.toList ++ (parameters ++ (stated.toList ++ (locals ++ statements))) ∧
      (∀ n ∈ identifier, n.kind = .id) ∧ (∀ n ∈ parameters, n.IsParameter) ∧
      (∀ n ∈ stated, n.kind = .vartype) ∧ (∀ n ∈ locals, n.IsDeclaration) ∧
      ∀ n ∈ statements, n.IsStmt

/-- A function with this node of its return type, or none, names a type: by its attribute, or else
on that node. -/
def NamesReturnTy (node : Node) (stated : Option Node) : Prop :=
  (∃ name ∈ tyNames, node.attribute? "returnType" = some name) ∨
    node.attribute? "returnType" = none ∧
      ∃ v, stated = some v ∧ ∃ name ∈ tyNames, v.attribute? "type" = some name

/-- The node is a function. -/
def IsFunction (node : Node) : Prop :=
  node.kind = .functionDef ∧ node.Has "funcName" ∧
    ∃ stated, AreRoutine node.children stated ∧ node.NamesReturnTy stated

/-- The node is a procedure. -/
def IsProcedure (node : Node) : Prop :=
  node.kind = .procedureDef ∧ node.Has "procName" ∧ AreRoutine node.children none

/-- The node is an item of a program. -/
def IsItem (node : Node) : Prop :=
  node.IsMain ∨ node.IsFunction ∨ node.IsProcedure

/-- The tree is that of a program. -/
structure IsProgram (root : Node) : Prop where
  kind : root.kind = .program
  items : ∀ n ∈ root.children, n.IsItem
  one_main : root.children.countP (·.is .mainProc) ≤ 1

/-! ## Names -/

theorem exists_require_iff {node : Node} {key : String} :
    (∃ value, node.require key = .ok value) ↔ node.Has key :=
  exists_congr fun _ => require_eq_ok_iff

@[simp]
theorem exists_callee_iff {node : Node} :
    (∃ callee, node.callee = .ok callee) ↔ node.NamesCallee := by
  unfold callee NamesCallee Has
  cases node.attribute? "funcName" with
  | some name => exact iff_of_true ⟨name, rfl⟩ (Or.inl ⟨name, rfl⟩)
  | none =>
    cases node.children.find? (·.is .id) with
    | none => exact iff_of_false nofun (by simp)
    | some id => cases hname : id.attribute? "name" <;> simp [hname]

theorem exists_ofName?_iff {name : String} :
    (∃ ty, Ty.ofName? name = some ty) ↔ name ∈ tyNames := by
  constructor
  · intro h
    obtain ⟨ty, hty⟩ := h
    obtain ⟨front, back, hnames, -⟩ := List.lookup_eq_some_iff.mp hty
    have hmem : (name, ty) ∈ Ty.names := hnames ▸ List.mem_append_right _ (List.mem_cons_self ..)
    have hall : ∀ entry ∈ Ty.names, entry.1 ∈ tyNames := by decide
    exact hall _ hmem
  · intro h
    have hall : ∀ name ∈ tyNames, (Ty.ofName? name).isSome = true := by decide
    exact Option.isSome_iff_exists.mp (hall name h)

theorem exists_ofName?_var_iff {name : String} :
    (∃ ty, Ty.ofName? name = some (.var ty)) ↔ name ∈ varTyNames := by
  constructor
  · intro h
    obtain ⟨ty, hty⟩ := h
    obtain ⟨front, back, hnames, -⟩ := List.lookup_eq_some_iff.mp hty
    have hmem : (name, Ty.var ty) ∈ Ty.names :=
      hnames ▸ List.mem_append_right _ (List.mem_cons_self ..)
    have hall : ∀ entry ∈ Ty.names, entry.2 ≠ .none → entry.1 ∈ varTyNames := by decide
    exact hall _ hmem nofun
  · intro h
    have hall : ∀ name ∈ varTyNames, ((Ty.ofName? name).bind Ty.var?).isSome = true := by decide
    obtain ⟨ty, hty⟩ := Option.isSome_iff_exists.mp (hall name h)
    obtain ⟨found, hfound, hvar⟩ := Option.bind_eq_some_iff.mp hty
    cases found with
    | none => cases hvar
    | var ty => exact ⟨ty, hfound⟩

/-! ## Expressions -/

theorem exists_toExpr_iff {node : Node} :
    (∃ e, node.toExpr = .ok e) ↔ ∃ e, node.untagged = .ok e := by
  constructor
  · intro h
    obtain ⟨e, he⟩ := h
    rw [toExpr_eq] at he
    obtain ⟨u, hu, -⟩ := map_eq_ok_iff.mp he
    exact ⟨u, hu⟩
  · intro h
    obtain ⟨u, hu⟩ := h
    exact ⟨node.retag u, by simp [toExpr_eq, hu]⟩

theorem exists_toExpr_call_iff {node : Node} (hkind : node.kind = .functionCall) :
    (∃ e, node.toExpr = .ok e) ↔
      node.NamesCallee ∧ ∀ c ∈ without .id node.children, ∃ e, c.toExpr = .ok e := by
  rw [exists_toExpr_iff, ← exists_callee_iff, ← exists_mapM_eq_ok_iff]
  unfold untagged
  rw [hkind]
  constructor
  · intro h
    obtain ⟨e, he⟩ := h
    obtain ⟨callee, hcallee, hrest⟩ := bind_eq_ok_iff.mp he
    obtain ⟨arguments, harguments, -⟩ := bind_eq_ok_iff.mp hrest
    exact ⟨⟨callee, hcallee⟩, arguments, harguments⟩
  · intro h
    obtain ⟨⟨callee, hcallee⟩, arguments, harguments⟩ := h
    refine ⟨.call .unlabelled callee arguments, bind_eq_ok_iff.mpr ⟨callee, hcallee, ?_⟩⟩
    exact bind_eq_ok_iff.mpr ⟨arguments, harguments, rfl⟩

theorem exists_toExpr_id_iff {node : Node} (hkind : node.kind = .id) :
    (∃ e, node.toExpr = .ok e) ↔ node.Has "name" := by
  rw [exists_toExpr_iff, ← exists_require_iff]
  unfold untagged
  rw [hkind]
  constructor
  · intro h
    obtain ⟨e, he⟩ := h
    obtain ⟨name, hname, -⟩ := bind_eq_ok_iff.mp he
    exact ⟨name, hname⟩
  · intro h
    obtain ⟨name, hname⟩ := h
    exact ⟨.var .unlabelled name, bind_eq_ok_iff.mpr ⟨name, hname, rfl⟩⟩

theorem exists_toExpr_element_iff {node : Node} (hkind : node.kind = .arrayElement) :
    (∃ e, node.toExpr = .ok e) ↔
      node.Has "name" ∧ ∃ first, (without .id node.children).head? = some first ∧
        ∃ e, first.toExpr = .ok e := by
  rw [exists_toExpr_iff, ← exists_require_iff]
  unfold untagged
  rw [hkind]
  dsimp only
  cases (without .id node.children).head? with
  | none =>
    refine iff_of_false (fun h => ?_) (fun h => ?_)
    · obtain ⟨e, he⟩ := h
      obtain ⟨name, -, hrest⟩ := bind_eq_ok_iff.mp he
      cases hrest
    · obtain ⟨-, first, hfirst, -⟩ := h
      cases hfirst
  | some first =>
    constructor
    · intro h
      obtain ⟨e, he⟩ := h
      obtain ⟨name, hname, hrest⟩ := bind_eq_ok_iff.mp he
      obtain ⟨index, hindex, -⟩ := bind_eq_ok_iff.mp hrest
      exact ⟨⟨name, hname⟩, first, rfl, index, hindex⟩
    · intro h
      obtain ⟨⟨name, hname⟩, found, hfound, index, hindex⟩ := h
      cases hfound
      refine ⟨.element .unlabelled name index, bind_eq_ok_iff.mpr ⟨name, hname, ?_⟩⟩
      exact bind_eq_ok_iff.mpr ⟨index, hindex, rfl⟩

/-- Only where there is no operand is nothing made of the operands. -/
@[simp]
theorem exists_combine_iff (node : Node) {es : List Expr} :
    (∃ e, node.combine es = .ok e) ↔ es ≠ [] := by
  cases es with
  | nil => exact iff_of_false nofun fun h => h rfl
  | cons first rest =>
    refine iff_of_true ?_ (List.cons_ne_nil _ _)
    cases rest with
    | nil =>
      unfold combine
      dsimp only
      cases node.unaryOperator? with
      | none => exact ⟨first, rfl⟩
      | some operator => exact ⟨.unary .unlabelled operator first, rfl⟩
    | cons second rest => exact ⟨_, rfl⟩

theorem exists_toExpr_composite_iff {node : Node} (hcomposite : node.Composite) :
    (∃ e, node.toExpr = .ok e) ↔
      node.Has "value" ∨ without .comparisonOperator node.children ≠ [] ∧
        ∀ c ∈ without .comparisonOperator node.children, ∃ e, c.toExpr = .ok e := by
  rw [exists_toExpr_iff,
    untagged_eq_of_other hcomposite.not_call hcomposite.not_id hcomposite.not_element]
  unfold Has
  cases hvalue : node.attribute? "value" with
  | some value => exact iff_of_true ⟨_, rfl⟩ (Or.inl ⟨value, rfl⟩)
  | none =>
    rw [← exists_mapM_eq_ok_iff]
    constructor
    · intro h
      obtain ⟨e, he⟩ := h
      obtain ⟨es, hes, hcombine⟩ := bind_eq_ok_iff.mp he
      refine Or.inr ⟨fun hnone => ?_, es, hes⟩
      -- nothing is combined where there is no operand
      have hlength : es.length = 0 := by simp [length_of_mapM_eq_ok hes, hnone]
      exact (exists_combine_iff node).mp ⟨e, hcombine⟩ (List.eq_nil_of_length_eq_zero hlength)
    · intro h
      rcases h with hfound | hoperands
      · obtain ⟨value, hfound⟩ := hfound
        cases hfound
      · obtain ⟨hsome, es, hes⟩ := hoperands
        have hne : es ≠ [] := by
          intro hnil
          have hlength := length_of_mapM_eq_ok hes
          rw [hnil] at hlength
          exact hsome (List.eq_nil_of_length_eq_zero hlength.symm)
        obtain ⟨e, he⟩ := (exists_combine_iff node).mpr hne
        exact ⟨e, bind_eq_ok_iff.mpr ⟨es, hes, he⟩⟩

/-- What fits the grammar can be read as an expression. -/
theorem IsExpr.exists_toExpr {node : Node} (h : node.IsExpr) : ∃ e, node.toExpr = .ok e := by
  induction h with
  | call kind callee _ ih => exact (exists_toExpr_call_iff kind).mpr ⟨callee, ih⟩
  | var kind name => exact (exists_toExpr_id_iff kind).mpr name
  | element kind name front _ ih =>
    exact (exists_toExpr_element_iff kind).mpr ⟨name, _, front, ih⟩
  | literal composite value => exact (exists_toExpr_composite_iff composite).mpr (Or.inl value)
  | operands composite some_operand _ ih =>
    exact (exists_toExpr_composite_iff composite).mpr (Or.inr ⟨some_operand, ih⟩)

/-- What can be read as an expression fits the grammar. -/
theorem isExpr_of_exists_toExpr {node : Node} (h : ∃ e, node.toExpr = .ok e) : node.IsExpr := by
  induction node using induction_children with
  | step node ih =>
    by_cases hcall : node.kind = .functionCall
    · obtain ⟨hcallee, harguments⟩ := (exists_toExpr_call_iff hcall).mp h
      exact .call hcall hcallee fun c hc => ih c (mem_without_iff.mp hc).1 (harguments c hc)
    by_cases hid : node.kind = .id
    · exact .var hid ((exists_toExpr_id_iff hid).mp h)
    by_cases helement : node.kind = .arrayElement
    · obtain ⟨hname, first, hfront, hindex⟩ := (exists_toExpr_element_iff helement).mp h
      have hfirst : first ∈ without .id node.children := List.mem_of_head? hfront
      exact .element helement hname hfront (ih first (mem_without_iff.mp hfirst).1 hindex)
    have hcomposite : node.Composite := ⟨hcall, hid, helement⟩
    rcases (exists_toExpr_composite_iff hcomposite).mp h with hvalue | hoperands
    · exact .literal hcomposite hvalue
    · obtain ⟨hsome, hoperands⟩ := hoperands
      exact .operands hcomposite hsome fun c hc =>
        ih c (mem_without_iff.mp hc).1 (hoperands c hc)

theorem exists_toExpr_iff_isExpr {node : Node} : (∃ e, node.toExpr = .ok e) ↔ node.IsExpr :=
  ⟨isExpr_of_exists_toExpr, IsExpr.exists_toExpr⟩

/-! ## Statements -/

/-- A call is read as a statement wherever it is read as an expression. -/
theorem exists_toCall_iff {node : Node} (hkind : node.kind = .functionCall) :
    (∃ s, node.toCall = .ok s) ↔ ∃ e, node.toExpr = .ok e := by
  rw [exists_toExpr_call_iff hkind, ← exists_callee_iff, ← exists_mapM_eq_ok_iff]
  constructor
  · intro h
    obtain ⟨s, hs⟩ := h
    obtain ⟨callee, es, hcallee, hes, -⟩ := Site.exists_of_toCall hs
    exact ⟨⟨callee, hcallee⟩, es, hes⟩
  · intro h
    obtain ⟨⟨callee, hcallee⟩, arguments, harguments⟩ := h
    refine ⟨.call callee arguments, bind_eq_ok_iff.mpr ⟨callee, hcallee, ?_⟩⟩
    exact bind_eq_ok_iff.mpr ⟨arguments, harguments, rfl⟩

theorem exists_toAssignment_iff {node : Node} :
    (∃ s, node.toAssignment = .ok s) ↔
      node.Has "name" ∧
        (∃ last, (without .id node.children).getLast? = some last ∧ ∃ e, last.toExpr = .ok e) ∧
        (2 ≤ (without .id node.children).length →
          ∃ first, (without .id node.children).head? = some first ∧ ∃ e, first.toExpr = .ok e) := by
  rw [← exists_require_iff]
  unfold toAssignment
  cases without .id node.children with
  | nil =>
    refine iff_of_false (fun h => ?_) (fun h => ?_)
    · obtain ⟨s, hs⟩ := h
      obtain ⟨target, -, hrest⟩ := bind_eq_ok_iff.mp hs
      cases hrest
    · obtain ⟨-, ⟨last, hlast, -⟩, -⟩ := h
      cases hlast
  | cons first others =>
    cases others with
    | nil =>
      constructor
      · intro h
        obtain ⟨s, hs⟩ := h
        obtain ⟨target, htarget, hrest⟩ := bind_eq_ok_iff.mp hs
        obtain ⟨value, hvalue, -⟩ := bind_eq_ok_iff.mp hrest
        refine ⟨⟨target, htarget⟩, ⟨first, rfl, value, hvalue⟩, fun htwo => ?_⟩
        exact absurd htwo (by simp)
      · intro h
        obtain ⟨⟨target, htarget⟩, ⟨last, hlast, value, hvalue⟩, -⟩ := h
        cases hlast
        refine ⟨.assign target none value, bind_eq_ok_iff.mpr ⟨target, htarget, ?_⟩⟩
        exact bind_eq_ok_iff.mpr ⟨value, hvalue, rfl⟩
    | cons next rest =>
      have hlast : (first :: next :: rest).getLast? = some (rest.getLastD next) := by
        simp [List.getLast?_cons]
      have htwo : 2 ≤ (first :: next :: rest).length := by simp
      rw [hlast]
      constructor
      · intro h
        obtain ⟨s, hs⟩ := h
        obtain ⟨target, htarget, hrest⟩ := bind_eq_ok_iff.mp hs
        obtain ⟨index, hindex, hrest⟩ := bind_eq_ok_iff.mp hrest
        obtain ⟨value, hvalue, -⟩ := bind_eq_ok_iff.mp hrest
        exact ⟨⟨target, htarget⟩, ⟨_, rfl, value, hvalue⟩, fun _ => ⟨first, rfl, index, hindex⟩⟩
      · intro h
        obtain ⟨⟨target, htarget⟩, ⟨last, hback, value, hvalue⟩, hfront⟩ := h
        obtain ⟨found, hfound, index, hindex⟩ := hfront htwo
        cases hback
        cases hfound
        refine ⟨.assign target (some index) value, bind_eq_ok_iff.mpr ⟨target, htarget, ?_⟩⟩
        refine bind_eq_ok_iff.mpr ⟨index, hindex, ?_⟩
        exact bind_eq_ok_iff.mpr ⟨value, hvalue, rfl⟩

/-- A branch has at most two blocks. -/
@[simp]
theorem exists_toBranch_iff {node : Node} {condition : Expr} {blocks : List (List Stmt)} :
    (∃ s, node.toBranch condition blocks = .ok s) ↔ blocks.length ≤ 2 := by
  match blocks with
  | [] => exact iff_of_true ⟨_, rfl⟩ (by simp)
  | [_] => exact iff_of_true ⟨_, rfl⟩ (by simp)
  | [_, _] => exact iff_of_true ⟨_, rfl⟩ (by simp)
  | _ :: _ :: _ :: rest => exact iff_of_false nofun (by simp)

theorem exists_stmts_iff {nodes : List Node} :
    (∃ ss, stmts nodes = .ok ss) ↔ ∀ n ∈ nodes, ∃ ss, n.toStmts = .ok ss := by
  rw [← exists_mapM_eq_ok_iff, stmts_eq]
  constructor
  · intro h
    obtain ⟨ss, hss⟩ := h
    obtain ⟨blocks, hblocks, -⟩ := map_eq_ok_iff.mp hss
    exact ⟨blocks, hblocks⟩
  · intro h
    obtain ⟨blocks, hblocks⟩ := h
    exact ⟨blocks.flatten, map_eq_ok_iff.mpr ⟨blocks, hblocks, rfl⟩⟩

/-- What fits the grammar can be read as statements. -/
theorem IsStmt.exists_toStmts {node : Node} (h : node.IsStmt) : ∃ ss, node.toStmts = .ok ss := by
  induction h with
  | @group node hkind _ ih =>
    obtain ⟨kind, attributes, children⟩ := node
    rcases hkind with rfl | rfl <;> exact exists_stmts_iff.mpr ih
  | @assignment node last hkind target back value index =>
    obtain ⟨kind, attributes, children⟩ := node
    cases hkind
    have hindex := fun htwo =>
      (index htwo).imp fun first hfirst => hfirst.imp_right IsExpr.exists_toExpr
    obtain ⟨s, hs⟩ :=
      exists_toAssignment_iff.mpr ⟨target, ⟨last, back, value.exists_toExpr⟩, hindex⟩
    exact ⟨[s], bind_eq_ok_iff.mpr ⟨s, hs, rfl⟩⟩
  | @call node hkind call =>
    obtain ⟨s, hs⟩ := (exists_toCall_iff hkind).mpr call.exists_toExpr
    obtain ⟨kind, attributes, children⟩ := node
    cases hkind
    exact ⟨[s], bind_eq_ok_iff.mpr ⟨s, hs, rfl⟩⟩
  | @branch node condition blocks hkind hchildren hcondition two _ ih =>
    obtain ⟨kind, attributes, children⟩ := node
    cases hkind
    cases hchildren
    obtain ⟨e, he⟩ := hcondition.exists_toExpr
    obtain ⟨bodies, hbodies⟩ := exists_mapM_eq_ok_iff.mpr ih
    have htwo : bodies.length ≤ 2 := by simpa [length_of_mapM_eq_ok hbodies] using two
    obtain ⟨s, hs⟩ := exists_toBranch_iff.mpr htwo
    refine ⟨[s], bind_eq_ok_iff.mpr ⟨e, he, bind_eq_ok_iff.mpr ⟨bodies, ?_, ?_⟩⟩⟩
    · rw [blocks_eq]
      exact hbodies
    · exact bind_eq_ok_iff.mpr ⟨s, hs, rfl⟩
  | @loop node condition body hkind hchildren hcondition _ ih =>
    obtain ⟨kind, attributes, children⟩ := node
    cases hkind
    cases hchildren
    obtain ⟨e, he⟩ := hcondition.exists_toExpr
    obtain ⟨ss, hss⟩ := exists_stmts_iff.mpr ih
    exact ⟨[.loop e ss], bind_eq_ok_iff.mpr ⟨e, he, bind_eq_ok_iff.mpr ⟨ss, hss, rfl⟩⟩⟩

/-- What can be read as statements fits the grammar. -/
theorem isStmt_of_toStmts {node : Node} :
    ∀ {ss : List Stmt}, node.toStmts = .ok ss → node.IsStmt := by
  induction node using induction_children with
  | step node ih =>
    intro ss h
    have hbelow : ∀ nodes ⊆ node.children, (∃ ss, stmts nodes = .ok ss) →
        ∀ n ∈ nodes, n.IsStmt := by
      intro nodes hnodes hstmts n hn
      obtain ⟨inner, hinner⟩ := exists_stmts_iff.mp hstmts n hn
      exact ih n (hnodes hn) hinner
    obtain ⟨kind, attributes, children⟩ := node
    cases kind with
    | stmtList => exact .group (Or.inl rfl) (hbelow children (List.Subset.refl _) ⟨ss, h⟩)
    | stmt => exact .group (Or.inr rfl) (hbelow children (List.Subset.refl _) ⟨ss, h⟩)
    | assignment =>
      obtain ⟨s, hs, -⟩ := bind_eq_ok_iff.mp h
      obtain ⟨htarget, ⟨last, hback, hvalue⟩, hindex⟩ := exists_toAssignment_iff.mp ⟨s, hs⟩
      refine .assignment rfl htarget hback (isExpr_of_exists_toExpr hvalue) fun htwo => ?_
      obtain ⟨first, hfront, hfirst⟩ := hindex htwo
      exact ⟨first, hfront, isExpr_of_exists_toExpr hfirst⟩
    | functionCall =>
      obtain ⟨s, hs, -⟩ := bind_eq_ok_iff.mp h
      exact .call rfl (isExpr_of_exists_toExpr ((exists_toCall_iff rfl).mp ⟨s, hs⟩))
    | ifStmt =>
      cases children with
      | nil => cases h
      | cons condition guarded =>
        obtain ⟨e, he, hrest⟩ := bind_eq_ok_iff.mp h
        obtain ⟨bodies, hbodies, hrest⟩ := bind_eq_ok_iff.mp hrest
        obtain ⟨s, hs, -⟩ := bind_eq_ok_iff.mp hrest
        rw [blocks_eq] at hbodies
        have htwo : guarded.length ≤ 2 := by
          rw [← length_of_mapM_eq_ok hbodies]
          exact exists_toBranch_iff.mp ⟨s, hs⟩
        have hstmts := exists_stmts_iff.mpr (exists_mapM_eq_ok_iff.mp ⟨bodies, hbodies⟩)
        exact .branch rfl rfl (isExpr_of_exists_toExpr ⟨e, he⟩) htwo
          (hbelow guarded (List.subset_cons_self _ _) hstmts)
    | whileStmt =>
      cases children with
      | nil => cases h
      | cons condition guarded =>
        obtain ⟨e, he, hrest⟩ := bind_eq_ok_iff.mp h
        obtain ⟨body, hbody, -⟩ := bind_eq_ok_iff.mp hrest
        exact .loop rfl rfl (isExpr_of_exists_toExpr ⟨e, he⟩)
          (hbelow guarded (List.subset_cons_self _ _) ⟨body, hbody⟩)
    | _ => cases h

theorem exists_stmts_iff_isStmt {nodes : List Node} :
    (∃ ss, stmts nodes = .ok ss) ↔ ∀ n ∈ nodes, n.IsStmt := by
  rw [exists_stmts_iff]
  constructor
  · intro h n hn
    obtain ⟨ss, hss⟩ := h n hn
    exact isStmt_of_toStmts hss
  · intro h n hn
    exact (h n hn).exists_toStmts

theorem IsStmt.kind_mem {node : Node} (h : node.IsStmt) :
    node.kind ∈ RoutineParts.statementKinds := by
  cases h with
  | group hkind _ => rcases hkind with hkind | hkind <;> rw [hkind] <;> decide
  | assignment hkind => rw [hkind]; decide
  | call hkind => rw [hkind]; decide
  | branch hkind => rw [hkind]; decide
  | loop hkind => rw [hkind]; decide

end Node

end StaticCheck
