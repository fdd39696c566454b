import StaticCheck.Proofs.Tree.Acceptance
import StaticCheck.Proofs.Tree.Coherence
import StaticCheck.Proofs.Tree.Coverage

/-!
# Writing a program as a tree

A program whose tags are coherent can be written as a tree that is read back as that program
(`Program.toProgram_toNode`), if it has one main procedure at most. `Expr.toNode`, `Stmt.toNode` and
`Program.toNode` write it.

What makes the tree readable: an identifier is put below a node of its own, because calls skip their
identifiers; an operator is put on a node above its right operand, because that node is asked for it
first; and every expression gets the label of its tag, which means just that tag on it
(`Expr.Coherent.ofName_label`).

Together with what is known of everything that is read, this tells the programs of trees apart from
all others: `Program.exists_toProgram_eq_iff`.
-/

namespace StaticCheck

/-! ## Expressions -/

namespace Node

/-- The node under the label of the tag. -/
def tagged (node : Node) (tag : Tag) : Node :=
  node.withAttribute "argType" tag.label

/-- A node that puts an operator in front of its only operand. -/
def operating (operator : String) (operand : Node) : Node :=
  ((ofKind .expr).withAttribute "op" operator).withChildren [operand]

/-- The kinds of the nodes that expressions are written as. -/
def expressionKinds : List NodeKind :=
  [.operand, .expr, .arrayElement, .functionCall, .unary]

end Node

namespace Expr

mutual

/-- The tree of an expression. -/
def toNode : Expr → Node
  | literal tag value => ((Node.ofKind .operand).withAttribute "value" value).tagged tag
  | var tag name =>
    ((Node.ofKind .expr).withChildren [(Node.ofKind .id).withAttribute "name" name]).tagged tag
  | element tag name index =>
    (((Node.ofKind .arrayElement).withAttribute "name" name).withChildren [index.toNode]).tagged tag
  | call tag callee arguments =>
    (((Node.ofKind .functionCall).withAttribute "funcName" callee).withChildren
      (toNodes arguments)).tagged tag
  | unary tag operator operand =>
    (((Node.ofKind .unary).withAttribute "op" operator).withChildren [operand.toNode]).tagged tag
  | binary tag left operator right =>
    ((Node.ofKind .expr).withChildren
      [left.toNode, right.toNode.operating operator]).tagged tag

/-- The trees of expressions. -/
def toNodes : List Expr → List Node
  | [] => []
  | e :: es => e.toNode :: toNodes es

end

theorem toNodes_eq (es : List Expr) : toNodes es = es.map toNode := by
  induction es with
  | nil => rfl
  | cons e es ih => simp [toNodes, ih]

theorem kind_toNode_mem (e : Expr) : e.toNode.kind ∈ Node.expressionKinds := by
  cases e <;> exact List.elem_iff.mp rfl

theorem kind_toNode_ne (e : Expr) {kind : NodeKind} (h : kind ∉ Node.expressionKinds) :
    e.toNode.kind ≠ kind :=
  fun heq => h (heq ▸ e.kind_toNode_mem)

end Expr

namespace Node

variable {node : Node} {e : Expr}

@[simp]
theorem attribute?_tagged (node : Node) (tag : Tag) {key : String} (h : key ≠ "argType") :
    (node.tagged tag).attribute? key = node.attribute? key := by
  simp [tagged, h]

@[simp]
theorem kind_tagged (node : Node) (tag : Tag) : (node.tagged tag).kind = node.kind := by
  simp [tagged]

@[simp]
theorem children_tagged (node : Node) (tag : Tag) : (node.tagged tag).children = node.children := by
  simp [tagged]

/-- The label of a node changes nothing else of the expression. -/
theorem untagged_tagged (node : Node) (tag : Tag) : (node.tagged tag).untagged = node.untagged := by
  have hname : (node.tagged tag).require "name" = node.require "name" := by
    simp [require]
  have hcallee : (node.tagged tag).callee = node.callee := by
    simp [callee]
  have hcombine : (node.tagged tag).combine = node.combine := by
    funext es
    unfold combine operators operatorBefore comparison? unaryOperator? unexpected
    simp
  unfold untagged unexpected
  simp [hname, hcallee, hcombine]

/-- What a node is read as, but for the label, is read with the tag of the label where that is
coherent. -/
theorem toExpr_tagged {tag : Tag} {u : Expr} (hcoherent : (u.withTag tag).Coherent)
    (hread : node.untagged = .ok u) : (node.tagged tag).toExpr = .ok (u.withTag tag) := by
  have hlabel : (node.tagged tag).attribute? "argType" = some tag.label := by simp [tagged]
  have hmeant : Tag.ofName tag.label u.callee? = tag := by simpa using hcoherent.ofName_label
  rw [toExpr_eq, untagged_tagged]
  refine map_eq_ok_iff.mpr ⟨u, hread, ?_⟩
  simp [retag, hlabel, hmeant]

/-- A node that has an operator and no label stands for its operand. -/
theorem toExpr_operating (operator : String) (hkind : node.kind ≠ .comparisonOperator)
    (hread : node.toExpr = .ok e) : (node.operating operator).toExpr = .ok e := by
  have hoperands : without .comparisonOperator (node.operating operator).children = [node] :=
    without_eq_self (List.forall_mem_singleton.mpr hkind)
  have hlabel : (node.operating operator).attribute? "argType" = none := by simp [operating]
  rw [toExpr_eq]
  refine map_eq_ok_iff.mpr ⟨e, bind_eq_ok_iff.mpr ⟨[e], ?_, rfl⟩, ?_⟩
  · simp [hoperands, hread]
  · simp [retag, hlabel]

/-- Expressions that are read back one by one are read back from operands. -/
theorem mapM_without_toNode {kind : NodeKind} {es : List Expr} (hkind : kind ∉ expressionKinds)
    (hread : ∀ e ∈ es, e.toNode.toExpr = .ok e) :
    (without kind (es.map Expr.toNode)).mapM toExpr = .ok es := by
  have hnone : ∀ n ∈ es.map Expr.toNode, n.kind ≠ kind :=
    List.forall_mem_map.mpr fun e _ => e.kind_toNode_ne hkind
  rw [without_eq_self hnone, mapM_map_eq_ok_map hread, List.map_id']

theorem untagged_element {first : Node} {name : String} {index : Expr}
    (hkind : node.kind = .arrayElement) (hname : node.attribute? "name" = some name)
    (hfront : (without .id node.children).head? = some first) (hread : first.toExpr = .ok index) :
    node.untagged = .ok (.element .unlabelled name index) := by
  unfold untagged
  rw [hkind]
  dsimp only
  rw [hfront]
  refine bind_eq_ok_iff.mpr ⟨name, require_eq_ok_iff.mpr hname, ?_⟩
  exact bind_eq_ok_iff.mpr ⟨index, hread, rfl⟩

/-- The operator of two operands is the one on the second. -/
theorem combine_pair {first second : Node} {left right : Expr} {operator : String}
    (hoperands : without .comparisonOperator node.children = [first, second])
    (hoperator : second.attribute? "op" = some operator) :
    node.combine [left, right] = .ok (.binary .unlabelled left operator right) := by
  have hbefore : node.operatorBefore second = operator := by
    simp [operatorBefore, hoperator]
  have hoperators : node.operators = [operator] := by
    simp [operators, hoperands, hbefore]
  simp [combine, chain, hoperators]

theorem untagged_pair {first second : Node} {left right : Expr} {operator : String}
    (hkind : node.kind = .expr) (hvalue : node.attribute? "value" = none)
    (hoperands : without .comparisonOperator node.children = [first, second])
    (hleft : first.toExpr = .ok left) (hright : second.toExpr = .ok right)
    (hoperator : second.attribute? "op" = some operator) :
    node.untagged = .ok (.binary .unlabelled left operator right) := by
  unfold untagged
  rw [hkind]
  dsimp only
  rw [hvalue]
  refine bind_eq_ok_iff.mpr ⟨[left, right], ?_, combine_pair hoperands hoperator⟩
  simp [hoperands, hleft, hright]

end Node

namespace Expr

/-- A coherent expression is read back from its tree. -/
theorem toExpr_toNode {e : Expr} (h : e.CoherentWithin) : e.toNode.toExpr = .ok e := by
  induction e using induction_children with
  | step e ih =>
    obtain ⟨hcoherent, hchildren⟩ := coherentWithin_iff.mp h
    have hread : ∀ c ∈ e.children, c.toNode.toExpr = .ok c := fun c hc => ih c hc (hchildren c hc)
    cases e with
    | literal tag value =>
      exact Node.toExpr_tagged (u := .literal .unlabelled value) hcoherent rfl
    | var tag name =>
      exact Node.toExpr_tagged (u := .var .unlabelled name) hcoherent rfl
    | element tag name index =>
      have hindex : index.toNode.toExpr = .ok index := hread index (List.mem_singleton_self _)
      have hfront : Node.without .id [index.toNode] = [index.toNode] :=
        Node.without_eq_self (List.forall_mem_singleton.mpr (index.kind_toNode_ne (by decide)))
      refine Node.toExpr_tagged (u := .element .unlabelled name index) hcoherent ?_
      exact Node.untagged_element rfl rfl (congrArg List.head? hfront) hindex
    | call tag callee arguments =>
      refine Node.toExpr_tagged (u := .call .unlabelled callee arguments) hcoherent ?_
      refine bind_eq_ok_iff.mpr ⟨callee, rfl, bind_eq_ok_iff.mpr ⟨arguments, ?_, rfl⟩⟩
      show (Node.without .id (toNodes arguments)).mapM Node.toExpr = .ok arguments
      rw [toNodes_eq]
      exact Node.mapM_without_toNode (by decide) hread
    | unary tag operator operand =>
      refine Node.toExpr_tagged (u := .unary .unlabelled operator operand) hcoherent ?_
      refine bind_eq_ok_iff.mpr ⟨[operand], ?_, rfl⟩
      exact Node.mapM_without_toNode (by decide) hread
    | binary tag left operator right =>
      have hleft : left.toNode.toExpr = .ok left := hread left (List.mem_cons_self ..)
      have hright : (right.toNode.operating operator).toExpr = .ok right :=
        Node.toExpr_operating operator (right.kind_toNode_ne (by decide))
          (hread right (List.mem_cons_of_mem _ (List.mem_singleton_self _)))
      have hoperands : ∀ n ∈ [left.toNode, right.toNode.operating operator],
          n.kind ≠ .comparisonOperator := by
        refine List.forall_mem_cons.mpr ⟨left.kind_toNode_ne (by decide), ?_⟩
        exact List.forall_mem_singleton.mpr nofun
      refine Node.toExpr_tagged (u := .binary .unlabelled left operator right) hcoherent ?_
      -- the operator is found on the node above the right operand
      exact Node.untagged_pair rfl rfl (Node.without_eq_self hoperands) hleft hright rfl

end Expr

/-! ## Statements -/

namespace Stmt

mutual

/-- The tree of a statement. -/
def toNode : Stmt → Node
  | assign target index value =>
    ((Node.ofKind .assignment).withAttribute "name" target).withChildren
      ((index.toList ++ [value]).map Expr.toNode)
  | call callee arguments =>
    ((Node.ofKind .functionCall).withAttribute "funcName" callee).withChildren
      (arguments.map Expr.toNode)
  | branch condition thenBody none =>
    (Node.ofKind .ifStmt).withChildren
      [condition.toNode, (Node.ofKind .stmtList).withChildren (toNodes thenBody)]
  | branch condition thenBody (some elseBody) =>
    (Node.ofKind .ifStmt).withChildren
      [condition.toNode, (Node.ofKind .stmtList).withChildren (toNodes thenBody),
        (Node.ofKind .stmtList).withChildren (toNodes elseBody)]
  | loop condition body =>
    (Node.ofKind .whileStmt).withChildren (condition.toNode :: toNodes body)

/-- The trees of statements. -/
def toNodes : List Stmt → List Node
  | [] => []
  | s :: ss => s.toNode :: toNodes ss

end

theorem toNodes_eq (ss : List Stmt) : toNodes ss = ss.map toNode := by
  induction ss with
  | nil => rfl
  | cons s ss ih => simp [toNodes, ih]

theorem kind_toNode_mem (s : Stmt) : s.toNode.kind ∈ RoutineParts.statementKinds := by
  cases s with
  | assign => exact List.elem_iff.mp rfl
  | call => exact List.elem_iff.mp rfl
  | branch _ _ elseBody => cases elseBody <;> exact List.elem_iff.mp rfl
  | loop => exact List.elem_iff.mp rfl

/-- Statements that are read back one by one are read back as a block. -/
theorem stmts_toNodes {ss : List Stmt} (hread : ∀ s ∈ ss, s.toNode.toStmts = .ok [s]) :
    Node.stmts (toNodes ss) = .ok ss := by
  have hblocks : (ss.map toNode).mapM Node.toStmts = .ok (ss.map fun s => [s]) :=
    mapM_map_eq_ok_map hread
  rw [Node.stmts_eq, toNodes_eq, hblocks]
  simp [← List.flatMap_def]

theorem toAssignment_toNode {target : String} {index : Option Expr} {value : Expr}
    (hread : ∀ e ∈ index.toList ++ [value], e.toNode.toExpr = .ok e) :
    (assign target index value).toNode.toAssignment = .ok (assign target index value) := by
  have hoperands : Node.without .id (assign target index value).toNode.children =
      (index.toList ++ [value]).map Expr.toNode := by
    refine Node.without_eq_self (List.forall_mem_map.mpr fun e _ => ?_)
    exact e.kind_toNode_ne (by decide)
  refine bind_eq_ok_iff.mpr ⟨target, rfl, ?_⟩
  rw [hoperands]
  cases index with
  | none => exact bind_eq_ok_iff.mpr ⟨value, hread value (List.mem_singleton_self _), rfl⟩
  | some index =>
    refine bind_eq_ok_iff.mpr ⟨index, hread index (List.mem_cons_self ..), ?_⟩
    exact bind_eq_ok_iff.mpr
      ⟨value, hread value (List.mem_cons_of_mem _ (List.mem_singleton_self _)), rfl⟩

/-- A coherent statement is read back from its tree. -/
theorem toStmts_toNode {s : Stmt} (h : s.Coherent) : s.toNode.toStmts = .ok [s] := by
  induction s using induction_inner with
  | step s ih =>
    obtain ⟨hexprs, hinner⟩ := coherent_iff.mp h
    have hread : ∀ e ∈ s.exprs, e.toNode.toExpr = .ok e :=
      fun e he => Expr.toExpr_toNode (hexprs e he)
    have hblock : ∀ ss ⊆ s.inner, Node.stmts (toNodes ss) = .ok ss :=
      fun ss hss => stmts_toNodes fun t ht => ih t (hss ht) (hinner t (hss ht))
    cases s with
    | assign target index value => exact bind_eq_ok_iff.mpr ⟨_, toAssignment_toNode hread, rfl⟩
    | call callee arguments =>
      refine bind_eq_ok_iff.mpr ⟨call callee arguments, bind_eq_ok_iff.mpr ⟨callee, rfl, ?_⟩, rfl⟩
      refine bind_eq_ok_iff.mpr ⟨arguments, Node.mapM_without_toNode (by decide) hread, rfl⟩
    | branch condition thenBody elseBody =>
      have hcondition := hread condition (List.mem_singleton_self _)
      have hthen : ((Node.ofKind .stmtList).withChildren (toNodes thenBody)).toStmts =
          .ok thenBody := hblock thenBody (List.subset_append_left _ _)
      cases elseBody with
      | none =>
        refine bind_eq_ok_iff.mpr ⟨condition, hcondition, bind_eq_ok_iff.mpr ⟨[thenBody], ?_, rfl⟩⟩
        simp [Node.blocks_eq, hthen]
      | some elseBody =>
        have helse : ((Node.ofKind .stmtList).withChildren (toNodes elseBody)).toStmts =
            .ok elseBody := hblock elseBody (List.subset_append_right _ _)
        refine bind_eq_ok_iff.mpr
          ⟨condition, hcondition, bind_eq_ok_iff.mpr ⟨[thenBody, elseBody], ?_, rfl⟩⟩
        simp [Node.blocks_eq, hthen, helse]
    | loop condition body =>
      refine bind_eq_ok_iff.mpr ⟨condition, hread condition (List.mem_singleton_self _), ?_⟩
      exact bind_eq_ok_iff.mpr ⟨body, hblock body (List.Subset.refl _), rfl⟩

end Stmt

/-! ## Programs -/

/-- The tree of a declaration, as a node of this kind. -/
def Declaration.toNode (kind : NodeKind) (d : Declaration) : Node :=
  ((Node.ofKind kind).withAttribute "name" d.name).withAttribute "type" d.ty.name

theorem Declaration.toDeclaration_toNode (kind : NodeKind) (d : Declaration) :
    (d.toNode kind).toDeclaration = .ok d := by
  have hname : (d.toNode kind).attribute? "name" = some d.name := by simp [toNode]
  have htype : (d.toNode kind).attribute? "type" = some d.ty.name := by simp [toNode]
  exact Node.toDeclaration_eq_ok_iff.mpr ⟨hname, d.ty.name, htype, Ty.ofName?_name (.var d.ty)⟩

theorem Declaration.mapM_toNode (kind : NodeKind) (ds : List Declaration) :
    (ds.map (toNode kind)).mapM Node.toDeclaration = .ok ds := by
  rw [mapM_map_eq_ok_map fun d _ => toDeclaration_toNode kind d, List.map_id']

theorem Declaration.kind_of_mem_map (kind : NodeKind) (ds : List Declaration) :
    ∀ n ∈ ds.map (toNode kind), n.kind = kind :=
  List.forall_mem_map.mpr fun _ _ => rfl

theorem Stmt.kind_of_mem_toNodes {ss : List Stmt} :
    ∀ n ∈ toNodes ss, n.kind ∈ RoutineParts.statementKinds := by
  rw [toNodes_eq]
  exact List.forall_mem_map.mpr fun s _ => s.kind_toNode_mem

/-- Coherent statements are read back as a block. -/
theorem Stmt.stmts_toNodes_of_coherent {ss : List Stmt} (h : ∀ s ∈ ss, s.Coherent) :
    Node.stmts (toNodes ss) = .ok ss :=
  stmts_toNodes fun s hs => toStmts_toNode (h s hs)

namespace Routine

/-- The trees of what a routine consists of. -/
def childNodes (r : Routine) : List Node :=
  r.parameters.map (Declaration.toNode .param) ++
    (r.locals.map (Declaration.toNode .declaration) ++ Stmt.toNodes r.body)

/-- The tree of a routine, which is a function if it states a return type. -/
def toNode (r : Routine) : Node :=
  match r.returnTy with
  | some ty =>
    (((Node.ofKind .functionDef).withAttribute "funcName" r.name).withAttribute "returnType"
      ty.name).withChildren r.childNodes
  | none => ((Node.ofKind .procedureDef).withAttribute "procName" r.name).withChildren r.childNodes

theorem ofChildren_childNodes (kind : RoutineKind) (r : Routine) :
    RoutineParts.ofChildren kind r.childNodes =
      ⟨r.parameters.map (Declaration.toNode .param), none,
        r.locals.map (Declaration.toNode .declaration), Stmt.toNodes r.body⟩ := by
  have hidentifier : ∀ n ∈ (none : Option Node), n.kind = .id := nofun
  have hstated : ∀ n ∈ (none : Option Node), n.kind = .vartype := nofun
  exact RoutineParts.ofChildren_append hidentifier
    (Declaration.kind_of_mem_map .param r.parameters) hstated (fun _ => rfl)
    (Declaration.kind_of_mem_map .declaration r.locals) Stmt.kind_of_mem_toNodes

/-- A routine is read back from a node that has its name, its return type and its children. -/
theorem toRoutine_eq_ok {kind : RoutineKind} {r : Routine} {node : Node}
    (hname : node.attribute? (Node.nameKey kind) = some r.name)
    (hreturn : Node.toReturnTy kind node none = .ok r.returnTy)
    (hchildren : node.children = r.childNodes) (hcoherent : ∀ s ∈ r.body, s.Coherent) :
    (node.toRoutine kind).result = .ok r := by
  have hparts := ofChildren_childNodes kind r
  have hparameters := Declaration.mapM_toNode .param r.parameters
  have hlocals := Declaration.mapM_toNode .declaration r.locals
  rw [← hchildren] at hparts
  unfold Node.toRoutine
  dsimp only
  rw [hparts]
  have hheader : node.toHeader kind ⟨r.parameters.map (Declaration.toNode .param), none,
      r.locals.map (Declaration.toNode .declaration), Stmt.toNodes r.body⟩ = .ok r.toHeader := by
    refine bind_eq_ok_iff.mpr ⟨r.name, Node.require_eq_ok_iff.mpr hname, ?_⟩
    refine bind_eq_ok_iff.mpr ⟨r.parameters, hparameters, ?_⟩
    exact bind_eq_ok_iff.mpr ⟨r.returnTy, hreturn, bind_eq_ok_iff.mpr ⟨r.locals, hlocals, rfl⟩⟩
  refine Logged.bind_eq_ok_iff.mpr ⟨r.toHeader, hheader, Logged.bind_eq_ok_iff.mpr ⟨(), rfl, ?_⟩⟩
  exact Logged.bind_eq_ok_iff.mpr ⟨r.body, Stmt.stmts_toNodes_of_coherent hcoherent, rfl⟩

/-- A routine that states a return type is read back from its tree as a function. -/
theorem toRoutine_function {r : Routine} {ty : Ty} (hty : r.returnTy = some ty)
    (hcoherent : ∀ s ∈ r.body, s.Coherent) :
    r.toNode.kind = .functionDef ∧ (r.toNode.toRoutine .function).result = .ok r := by
  unfold toNode
  rw [hty]
  refine ⟨rfl, toRoutine_eq_ok ?_ ?_ rfl hcoherent⟩
  · simp [Node.nameKey]
  · rw [hty]
    refine bind_eq_ok_iff.mpr ⟨ty.name, Node.returnTyName_eq_ok_iff.mpr (Or.inl (by simp)), ?_⟩
    exact bind_eq_ok_iff.mpr ⟨ty, Node.readTy_eq_ok_iff.mpr ty.ofName?_name, rfl⟩

/-- A routine that states none is read back as a procedure. -/
theorem toRoutine_procedure {r : Routine} (hty : r.returnTy = none)
    (hcoherent : ∀ s ∈ r.body, s.Coherent) :
    r.toNode.kind = .procedureDef ∧ (r.toNode.toRoutine .procedure).result = .ok r := by
  unfold toNode
  rw [hty]
  refine ⟨rfl, toRoutine_eq_ok ?_ (congrArg Except.ok hty.symm) rfl hcoherent⟩
  simp [Node.nameKey]

end Routine

namespace MainProc

/-- The tree of a main procedure. -/
def toNode (m : MainProc) : Node :=
  (Node.ofKind .mainProc).withChildren
    (m.declarations.map (Declaration.toNode .declaration) ++ Stmt.toNodes m.body)

theorem toMain_toNode {m : MainProc} (hcoherent : ∀ s ∈ m.body, s.Coherent) :
    m.toNode.toMain = .ok m := by
  have hbehind : ∀ n ∈ Stmt.toNodes m.body, n.kind ≠ .declaration :=
    RoutineParts.forall_kind_ne_of_mem Stmt.kind_of_mem_toNodes (by decide)
  have hfront := Declaration.kind_of_mem_map .declaration m.declarations
  have htake := Node.takeWhile_append_of_kind hfront hbehind
  have hdrop := Node.dropWhile_append_of_kind hfront hbehind
  refine bind_eq_ok_iff.mpr ⟨m.declarations, ?_, bind_eq_ok_iff.mpr ⟨m.body, ?_, rfl⟩⟩
  · exact (congrArg (List.mapM Node.toDeclaration) htake).trans (Declaration.mapM_toNode _ _)
  · exact (congrArg Node.stmts hdrop).trans (Stmt.stmts_toNodes_of_coherent hcoherent)

end MainProc

namespace Item

/-- The tree of an item. -/
def toNode : Item → Node
  | main m => m.toNode
  | routine r => r.toNode

/-- Items with coherent bodies are read back, if no further main procedure is among them than may
still come. -/
theorem toItems_map_toNode {items : List Item}
    (hcoherent : ∀ item ∈ items, ∀ s ∈ item.body, s.Coherent) :
    ∀ {mainSeen : Bool}, items.countP (·.main?.isSome) ≤ Node.mainsLeft mainSeen →
      (Node.toItems mainSeen (items.map toNode)).result = .ok items := by
  induction items with
  | nil =>
    intro mainSeen _
    rfl
  | cons item items ih =>
    intro mainSeen hmains
    obtain ⟨hbody, hrest⟩ := List.forall_mem_cons.mp hcoherent
    rw [List.countP_cons] at hmains
    rw [List.map_cons]
    unfold Node.toItems
    cases item with
    | main m =>
      cases mainSeen with
      | true => exact absurd hmains (Nat.not_succ_le_zero _)
      | false =>
        have hitems : (Node.toItems true (items.map toNode)).result = .ok items :=
          ih hrest (Nat.le_of_succ_le_succ hmains)
        refine Logged.bind_eq_ok_iff.mpr ⟨m, MainProc.toMain_toNode hbody, ?_⟩
        exact Logged.bind_eq_ok_iff.mpr ⟨items, hitems, rfl⟩
    | routine r =>
      have hitems : (Node.toItems mainSeen (items.map toNode)).result = .ok items :=
        ih hrest hmains
      cases hty : r.returnTy with
      | some ty =>
        obtain ⟨hkind, hread⟩ := Routine.toRoutine_function hty hbody
        rw [show (routine r).toNode.kind = .functionDef from hkind]
        refine Logged.bind_eq_ok_iff.mpr ⟨r, hread, ?_⟩
        exact Logged.bind_eq_ok_iff.mpr ⟨items, hitems, rfl⟩
      | none =>
        obtain ⟨hkind, hread⟩ := Routine.toRoutine_procedure hty hbody
        rw [show (routine r).toNode.kind = .procedureDef from hkind]
        refine Logged.bind_eq_ok_iff.mpr ⟨r, hread, ?_⟩
        exact Logged.bind_eq_ok_iff.mpr ⟨items, hitems, rfl⟩

end Item

namespace Program

/-- The tree of a program. -/
def toNode (p : Program) : Node :=
  (Node.ofKind .program).withChildren (p.items.map Item.toNode)

/-- The expression occurs in a body of the program, at any depth. -/
def Contains (p : Program) (e : Expr) : Prop :=
  ∃ item ∈ p.items, e.OccursIn item.body

theorem forall_contains_iff {p : Program} :
    (∀ e, p.Contains e → e.Coherent) ↔ ∀ item ∈ p.items, ∀ s ∈ item.body, s.Coherent := by
  constructor
  · intro h item hitem
    exact Stmt.forall_coherent_iff.mp fun e he => h e ⟨item, hitem, he⟩
  · intro h e hcontains
    obtain ⟨item, hitem, he⟩ := hcontains
    exact Stmt.forall_coherent_iff.mpr (h item hitem) e he

/-- A program with coherent tags and one main procedure at most is read back from its tree. -/
theorem toProgram_toNode {p : Program} (hmains : p.items.countP (·.main?.isSome) ≤ 1)
    (hcoherent : ∀ e, p.Contains e → e.Coherent) : p.toNode.toProgram.result = .ok p :=
  Node.toProgram_eq_ok_iff.mpr
    ⟨rfl, Item.toItems_map_toNode (forall_contains_iff.mp hcoherent) hmains⟩

end Program

/-! ## What is read of programs -/

namespace Node

/-- No further main procedure is read than may still come. -/
theorem countP_main_of_toItems {nodes : List Node} :
    ∀ {mainSeen : Bool} {items : List Item}, (toItems mainSeen nodes).result = .ok items →
      items.countP (·.main?.isSome) ≤ mainsLeft mainSeen := by
  induction nodes with
  | nil =>
    intro mainSeen items h
    cases h
    exact Nat.zero_le _
  | cons node nodes ih =>
    intro mainSeen items h
    unfold toItems at h
    split at h
    · cases mainSeen with
      | true => cases h
      | false =>
        obtain ⟨m, -, hrest⟩ := Logged.bind_eq_ok_iff.mp h
        obtain ⟨rest, hread, heq⟩ := Logged.bind_eq_ok_iff.mp hrest
        cases heq
        have hnone : rest.countP (·.main?.isSome) ≤ 0 := ih hread
        rw [List.countP_cons]
        exact Nat.succ_le_succ hnone
    · obtain ⟨r, -, hrest⟩ := Logged.bind_eq_ok_iff.mp h
      obtain ⟨rest, hread, heq⟩ := Logged.bind_eq_ok_iff.mp hrest
      cases heq
      rw [List.countP_cons]
      exact ih hread
    · obtain ⟨r, -, hrest⟩ := Logged.bind_eq_ok_iff.mp h
      obtain ⟨rest, hread, heq⟩ := Logged.bind_eq_ok_iff.mp hrest
      cases heq
      rw [List.countP_cons]
      exact ih hread
    · cases h

/-- Each item that is read is one that a node stands for. -/
theorem exists_node {nodes : List Node} :
    ∀ {mainSeen : Bool} {items : List Item}, (toItems mainSeen nodes).result = .ok items →
      ∀ item ∈ items, ∃ node ∈ nodes, node.StandsFor item := by
  induction nodes with
  | nil =>
    intro mainSeen items h item hitem
    cases h
    cases hitem
  | cons first nodes ih =>
    intro mainSeen items h item hitem
    obtain ⟨_, front, rest, hfirst, hnodes, rfl⟩ := exists_of_toItems_cons h
    rcases List.mem_cons.mp hitem with rfl | hitem
    · exact ⟨first, List.mem_cons_self .., hfirst⟩
    · obtain ⟨node, hnode, hstands⟩ := ih hnodes item hitem
      exact ⟨node, List.mem_cons_of_mem _ hnode, hstands⟩

end Node

/-- A program is read off some tree if and only if it has one main procedure at most and all its
tags are coherent. -/
theorem Program.exists_toProgram_eq_iff (p : Program) :
    (∃ root : Node, root.toProgram.result = .ok p) ↔
      p.items.countP (·.main?.isSome) ≤ 1 ∧ ∀ e, p.Contains e → e.Coherent := by
  constructor
  · intro h
    obtain ⟨root, hread⟩ := h
    obtain ⟨-, hitems⟩ := Node.toProgram_eq_ok_iff.mp hread
    refine ⟨Node.countP_main_of_toItems hitems, forall_contains_iff.mpr fun item hitem => ?_⟩
    obtain ⟨node, -, hstands⟩ := Node.exists_node hitems item hitem
    exact Stmt.coherent_of_stmts (fun _ _ _ => Stmt.coherent_of_toStmts) hstands.body
  · intro h
    obtain ⟨hmains, hcoherent⟩ := h
    exact ⟨p.toNode, toProgram_toNode hmains hcoherent⟩

end StaticCheck
