import StaticCheck.Table.Lemmas
import StaticCheck.Tree.Program

/-!
# The layout of a node

What a node stands for depends on its attributes and on its children, which are told apart by their
kinds. Here are the facts about either that do not depend on what is read: which children are left
once those of a kind are skipped (`mem_without_iff`), what an attribute is after it was set
(`attribute?_withAttribute`), and induction along the tree (`induction_children`).

The children of a routine come in parts, each of them told by its kind.
`RoutineParts.exists_of_ofChildren` puts any children together again from their parts, and
`RoutineParts.ofChildren_append` finds the parts of children that were put together from them.
-/

namespace StaticCheck

namespace Node

variable {node : Node} {kind : NodeKind} {key value : String}

@[simp]
theorem is_iff : node.is kind = true ↔ node.kind = kind :=
  decide_eq_true_iff

@[simp]
theorem is_eq_false_iff : node.is kind = false ↔ node.kind ≠ kind :=
  decide_eq_false_iff_not

@[simp]
theorem mem_without_iff {nodes : List Node} :
    node ∈ without kind nodes ↔ node ∈ nodes ∧ node.kind ≠ kind := by
  simp [without]

/-- Where no node is of the kind, none is skipped. -/
theorem without_eq_self {nodes : List Node} (h : ∀ n ∈ nodes, n.kind ≠ kind) :
    without kind nodes = nodes := by
  unfold without
  refine List.filter_eq_self.mpr fun n hn => ?_
  simp [h n hn]

@[simp]
theorem require_eq_ok_iff : node.require key = .ok value ↔ node.attribute? key = some value := by
  unfold require
  cases node.attribute? key <;> simp

@[simp]
theorem attribute?_ofKind (kind : NodeKind) (key : String) : (ofKind kind).attribute? key = none :=
  rfl

theorem attribute?_withAttribute (node : Node) (key value other : String) :
    (node.withAttribute key value).attribute? other =
      if other = key then some value else node.attribute? other :=
  Table.get?_insert node.attributes key other value

@[simp]
theorem attribute?_withAttribute_self (node : Node) (key value : String) :
    (node.withAttribute key value).attribute? key = some value := by
  simp [attribute?_withAttribute]

@[simp]
theorem attribute?_withAttribute_of_ne (node : Node) (value : String) {key other : String}
    (h : other ≠ key) :
    (node.withAttribute key value).attribute? other = node.attribute? other := by
  simp [attribute?_withAttribute, h]

@[simp]
theorem attribute?_withChildren (node : Node) (children : List Node) (key : String) :
    (node.withChildren children).attribute? key = node.attribute? key := rfl

@[simp]
theorem kind_withAttribute (node : Node) (key value : String) :
    (node.withAttribute key value).kind = node.kind := rfl

@[simp]
theorem children_withAttribute (node : Node) (key value : String) :
    (node.withAttribute key value).children = node.children := rfl

/-- What holds of a node as soon as it holds of its children holds of all nodes. -/
theorem induction_children {motive : Node → Prop}
    (step : ∀ node : Node, (∀ c ∈ node.children, motive c) → motive node) (node : Node) :
    motive node := by
  refine Node.rec (motive_1 := motive) (motive_2 := fun nodes => ∀ c ∈ nodes, motive c)
    ?_ ?_ ?_ node
  · intro kind attributes children ih
    exact step ⟨kind, attributes, children⟩ ih
  · intro c hc
    exact absurd hc List.not_mem_nil
  · intro head tail ih ihs c hc
    rcases List.mem_cons.mp hc with rfl | hc
    · exact ih
    · exact ihs c hc

/-! ## Nodes of a kind in front -/

/-- Nodes of a kind in front of nodes of other kinds are what is taken in front. -/
theorem takeWhile_append_of_kind {front rest : List Node} (hfront : ∀ n ∈ front, n.kind = kind)
    (hrest : ∀ n ∈ rest, n.kind ≠ kind) : (front ++ rest).takeWhile (·.is kind) = front := by
  rw [List.takeWhile_append_of_pos fun n hn => is_iff.mpr (hfront n hn)]
  cases rest with
  | nil => simp
  | cons n rest => simp [hrest n (List.mem_cons_self ..)]

theorem dropWhile_append_of_kind {front rest : List Node} (hfront : ∀ n ∈ front, n.kind = kind)
    (hrest : ∀ n ∈ rest, n.kind ≠ kind) : (front ++ rest).dropWhile (·.is kind) = rest := by
  rw [List.dropWhile_append_of_pos fun n hn => is_iff.mpr (hfront n hn)]
  cases rest with
  | nil => rfl
  | cons n rest => simp [hrest n (List.mem_cons_self ..)]

theorem kind_of_mem_takeWhile {nodes : List Node} (h : node ∈ nodes.takeWhile (·.is kind)) :
    node.kind = kind :=
  is_iff.mp (List.all_eq_true.mp List.all_takeWhile node h)

end Node

namespace RoutineParts

/-! ## The parts of a routine -/

variable {kind : NodeKind} {nodes rest : List Node}

theorem kind_of_front? {node : Node} (h : front? kind nodes = some node) : node.kind = kind :=
  Node.is_iff.mp (Option.filter_eq_some_iff.mp h).2

/-- A node in front and the others are all nodes. -/
theorem front?_append_behind (kind : NodeKind) (nodes : List Node) :
    (front? kind nodes).toList ++ behind kind nodes = nodes := by
  unfold behind
  cases nodes with
  | nil => rfl
  | cons node nodes =>
    have hfront : front? kind (node :: nodes) = if node.is kind then some node else none := rfl
    rw [hfront]
    cases node.is kind <;> rfl

/-- A node of the kind, or none, in front of nodes of other kinds is the one in front. -/
theorem front?_append {first : Option Node} (hfirst : ∀ n ∈ first, n.kind = kind)
    (hrest : ∀ n ∈ rest, n.kind ≠ kind) : front? kind (first.toList ++ rest) = first := by
  cases first with
  | some node =>
    have hnode : node.is kind = true := Node.is_iff.mpr (hfirst node rfl)
    show (if node.is kind then some node else none) = some node
    rw [if_pos hnode]
  | none =>
    cases rest with
    | nil => rfl
    | cons n rest =>
      have hn : n.is kind = false := Node.is_eq_false_iff.mpr (hrest n (List.mem_cons_self ..))
      show (if n.is kind then some n else none) = none
      rw [hn]
      rfl

theorem behind_append {first : Option Node} (hfirst : ∀ n ∈ first, n.kind = kind)
    (hrest : ∀ n ∈ rest, n.kind ≠ kind) : behind kind (first.toList ++ rest) = rest := by
  unfold behind
  rw [front?_append hfirst hrest]
  cases first <;> rfl

theorem forall_kind_ne {nodes : List Node} {kind other : NodeKind} (h : ∀ n ∈ nodes, n.kind = kind)
    (hne : kind ≠ other) : ∀ n ∈ nodes, n.kind ≠ other :=
  fun n hn heq => hne ((h n hn).symm.trans heq)

theorem forall_kind_ne_of_mem {nodes : List Node} {kinds : List NodeKind} {other : NodeKind}
    (h : ∀ n ∈ nodes, n.kind ∈ kinds) (hnot : other ∉ kinds) : ∀ n ∈ nodes, n.kind ≠ other :=
  fun n hn heq => hnot (heq ▸ h n hn)

/-- The children of a routine are an identifier or none, its parameters, the node of a return type
or none, which a procedure does not have, its local variables and its statements. -/
theorem exists_of_ofChildren (kind : RoutineKind) (children : List Node) :
    ∃ identifier stated : Option Node,
      children = identifier.toList ++ ((ofChildren kind children).parameters ++ (stated.toList ++
        ((ofChildren kind children).locals ++ (ofChildren kind children).statements))) ∧
      (∀ n ∈ identifier, n.kind = .id) ∧ (∀ n ∈ stated, n.kind = .vartype) ∧
      (kind = .function → stated = (ofChildren kind children).returnTy) ∧
      (kind = .procedure → stated = none) := by
  have hnamed := front?_append_behind .id children
  have hparameters :=
    List.takeWhile_append_dropWhile (p := (·.is .param)) (l := behind .id children)
  refine ⟨front? .id children, ?_⟩
  cases kind with
  | function =>
    have htyped := front?_append_behind .vartype ((behind .id children).dropWhile (·.is .param))
    have hdeclared := List.takeWhile_append_dropWhile (p := (·.is .declaration))
      (l := behind .vartype ((behind .id children).dropWhile (·.is .param)))
    refine ⟨front? .vartype ((behind .id children).dropWhile (·.is .param)), ?_,
      fun n => kind_of_front?, fun n => kind_of_front?, fun _ => rfl, nofun⟩
    show children = _ ++ (_ ++ (_ ++ (List.takeWhile _ _ ++ List.dropWhile _ _)))
    rw [hdeclared, htyped]
    show children = _ ++ (List.takeWhile _ _ ++ List.dropWhile _ _)
    rw [hparameters, hnamed]
  | procedure =>
    have hdeclared := List.takeWhile_append_dropWhile (p := (·.is .declaration))
      (l := (behind .id children).dropWhile (·.is .param))
    refine ⟨none, ?_, fun n => kind_of_front?, nofun, nofun, fun _ => rfl⟩
    show children = _ ++ (_ ++ ([] ++ (List.takeWhile _ _ ++ List.dropWhile _ _)))
    rw [hdeclared]
    show children = _ ++ (List.takeWhile _ _ ++ List.dropWhile _ _)
    rw [hparameters, hnamed]

/-- The kinds of the nodes that stand for statements. -/
def statementKinds : List NodeKind :=
  [.stmtList, .stmt, .assignment, .functionCall, .ifStmt, .whileStmt]

/-- Nodes that are put together like the children of a routine have these parts. -/
theorem ofChildren_append {kind : RoutineKind} {identifier stated : Option Node}
    {parameters locals statements : List Node} (hidentifier : ∀ n ∈ identifier, n.kind = .id)
    (hparameters : ∀ n ∈ parameters, n.kind = .param)
    (hstated : ∀ n ∈ stated, n.kind = .vartype) (hprocedure : kind = .procedure → stated = none)
    (hlocals : ∀ n ∈ locals, n.kind = .declaration)
    (hstatements : ∀ n ∈ statements, n.kind ∈ statementKinds) :
    ofChildren kind
        (identifier.toList ++ (parameters ++ (stated.toList ++ (locals ++ statements)))) =
      ⟨parameters, stated, locals, statements⟩ := by
  have hreturn : ∀ n ∈ stated.toList, n.kind = .vartype :=
    fun n hn => hstated n (Option.mem_toList.mp hn)
  -- behind each part there is no node of its kind
  have hbehindLocals : ∀ n ∈ statements, n.kind ≠ .declaration :=
    forall_kind_ne_of_mem hstatements (by decide)
  have hbehindReturn : ∀ n ∈ locals ++ statements, n.kind ≠ .vartype :=
    List.forall_mem_append.mpr ⟨forall_kind_ne hlocals (by decide),
      forall_kind_ne_of_mem hstatements (by decide)⟩
  have hbehindParameters : ∀ n ∈ stated.toList ++ (locals ++ statements), n.kind ≠ .param :=
    List.forall_mem_append.mpr ⟨forall_kind_ne hreturn (by decide),
      List.forall_mem_append.mpr ⟨forall_kind_ne hlocals (by decide),
        forall_kind_ne_of_mem hstatements (by decide)⟩⟩
  have hbehindName : ∀ n ∈ parameters ++ (stated.toList ++ (locals ++ statements)), n.kind ≠ .id :=
    List.forall_mem_append.mpr ⟨forall_kind_ne hparameters (by decide),
      List.forall_mem_append.mpr ⟨forall_kind_ne hreturn (by decide),
        List.forall_mem_append.mpr ⟨forall_kind_ne hlocals (by decide),
          forall_kind_ne_of_mem hstatements (by decide)⟩⟩⟩
  cases kind with
  | function =>
    unfold ofChildren
    dsimp only
    rw [behind_append hidentifier hbehindName,
      Node.takeWhile_append_of_kind hparameters hbehindParameters,
      Node.dropWhile_append_of_kind hparameters hbehindParameters,
      front?_append hstated hbehindReturn, behind_append hstated hbehindReturn,
      Node.takeWhile_append_of_kind hlocals hbehindLocals,
      Node.dropWhile_append_of_kind hlocals hbehindLocals]
  | procedure =>
    -- a procedure goes on with its local variables where a function has its return type
    cases hprocedure rfl
    unfold ofChildren
    dsimp only
    rw [behind_append hidentifier hbehindName,
      Node.takeWhile_append_of_kind hparameters hbehindParameters,
      Node.dropWhile_append_of_kind hparameters hbehindParameters,
      front?_append hstated hbehindReturn]
    show RoutineParts.mk parameters none ((locals ++ statements).takeWhile _)
      ((locals ++ statements).dropWhile _) = _
    rw [Node.takeWhile_append_of_kind hlocals hbehindLocals,
      Node.dropWhile_append_of_kind hlocals hbehindLocals]

end RoutineParts

end StaticCheck
