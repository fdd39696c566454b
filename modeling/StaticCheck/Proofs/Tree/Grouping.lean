import StaticCheck.Proofs.Tree.Layout
import StaticCheck.Proofs.Tree.Traversal

/-!
# Groups of statements

A statement list and a single-statement node say nothing by themselves: they only group the statements
below them. `flat` dissolves all groups of a list of nodes, however deep they are nested, and also those
in the bodies of loops and within the blocks of branches. Only the node around a block is kept if it is
a group, since a branch tells its blocks apart by it.

By `stmts_flat_and_append` dissolving the groups changes nothing, be it a list of statements or what is
wrong with them, and what a list of nodes stands for is put together from what its parts stand for.
-/

namespace StaticCheck.Node

/-- The node groups statements and is none itself. -/
def isGroup (node : Node) : Bool :=
  node.is .stmtList || node.is .stmt

mutual

/-- The node without groups below it, but for those that are blocks of branches. -/
def loosen : Node → Node
  | ⟨.stmtList, attributes, children⟩ => ⟨.stmtList, attributes, flat children⟩
  | ⟨.stmt, attributes, children⟩ => ⟨.stmt, attributes, flat children⟩
  | ⟨.ifStmt, attributes, condition :: blocks⟩ =>
    ⟨.ifStmt, attributes, condition :: loosenEach blocks⟩
  | ⟨.whileStmt, attributes, condition :: body⟩ =>
    ⟨.whileStmt, attributes, condition :: flat body⟩
  | ⟨kind, attributes, children⟩ => ⟨kind, attributes, children⟩

/-- The nodes with the children of each group in its place. -/
def flat : List Node → List Node
  | [] => []
  | node :: nodes =>
    (if node.isGroup then node.loosen.children else [node.loosen]) ++ flat nodes

/-- The nodes one by one, without groups below them. -/
def loosenEach : List Node → List Node
  | [] => []
  | node :: nodes => node.loosen :: loosenEach nodes

end

/-- What stands in the place of a node in the flat list. -/
def spread (node : Node) : List Node :=
  if node.isGroup then node.loosen.children else [node.loosen]

mutual

/-- The node is no group, and there is none in its body if it is a loop. -/
inductive Ungrouped : Node → Prop
  | branch {attributes : Table String} {condition : Node} {guarded : List Node}
      (blocks : ∀ b ∈ guarded, Block b) : Ungrouped ⟨.ifStmt, attributes, condition :: guarded⟩
  | loop {attributes : Table String} {condition : Node} {guarded : List Node}
      (body : ∀ s ∈ guarded, Ungrouped s) : Ungrouped ⟨.whileStmt, attributes, condition :: guarded⟩
  | bare {node : Node} (single : node.isGroup = false)
      (guards : node.kind = .ifStmt ∨ node.kind = .whileStmt → node.children = []) : Ungrouped node

/-- The node is a block of a branch: a statement, or a group of statements that are no groups. -/
inductive Block : Node → Prop
  | group {node : Node} (kind : node.isGroup = true) (statements : ∀ s ∈ node.children, Ungrouped s) :
      Block node
  | single {node : Node} (statement : Ungrouped node) : Block node

end

/-- None of the nodes is a group, and groups below them are blocks of branches. -/
def NoGroups (nodes : List Node) : Prop :=
  ∀ n ∈ nodes, n.Ungrouped

/-! ## Which groups are left -/

theorem flat_eq (nodes : List Node) : flat nodes = nodes.flatMap spread := by
  induction nodes with
  | nil => rfl
  | cons node nodes ih => simp [flat, ih, spread]

theorem loosenEach_eq (nodes : List Node) : loosenEach nodes = nodes.map loosen := by
  induction nodes with
  | nil => rfl
  | cons node nodes ih => simp [loosenEach, ih]

@[simp]
theorem kind_loosen (node : Node) : node.loosen.kind = node.kind := by
  obtain ⟨kind, attributes, children⟩ := node
  cases kind <;> cases children <;> rfl

@[simp]
theorem isGroup_loosen (node : Node) : node.loosen.isGroup = node.isGroup := by
  simp [isGroup, is]

theorem noGroups_flat_of {nodes : List Node} (h : ∀ c ∈ nodes, NoGroups c.spread) :
    NoGroups (flat nodes) := by
  intro n hn
  rw [flat_eq] at hn
  obtain ⟨c, hc, hspread⟩ := List.mem_flatMap.mp hn
  exact h c hc n hspread

theorem block_loosen_of (node : Node) (h : NoGroups node.spread) : Block node.loosen := by
  unfold NoGroups spread at h
  by_cases hgroup : node.isGroup = true
  · rw [if_pos hgroup] at h
    exact .group (node.isGroup_loosen.trans hgroup) h
  · rw [if_neg hgroup] at h
    exact .single (h _ (List.mem_singleton_self _))

theorem noGroups_spread : ∀ node : Node, NoGroups node.spread := by
  refine induction_children fun node ih => ?_
  obtain ⟨kind, attributes, children⟩ := node
  have hsingle : ∀ {n : Node}, n.Ungrouped → NoGroups [n] := by
    intro n hn s hs
    rw [List.mem_singleton.mp hs]
    exact hn
  cases kind with
  | stmtList => exact noGroups_flat_of ih
  | stmt => exact noGroups_flat_of ih
  | ifStmt =>
    cases children with
    | nil => exact hsingle (.bare rfl fun _ => rfl)
    | cons condition guarded =>
      refine hsingle (.branch fun b hb => ?_)
      rw [loosenEach_eq] at hb
      obtain ⟨c, hc, rfl⟩ := List.mem_map.mp hb
      exact c.block_loosen_of (ih c (List.mem_cons_of_mem _ hc))
  | whileStmt =>
    cases children with
    | nil => exact hsingle (.bare rfl fun _ => rfl)
    | cons condition guarded =>
      exact hsingle (.loop (noGroups_flat_of fun c hc => ih c (List.mem_cons_of_mem _ hc)))
  | _ => exact hsingle (.bare rfl nofun)

theorem noGroups_flat (nodes : List Node) : NoGroups (flat nodes) :=
  noGroups_flat_of fun c _ => c.noGroups_spread

/-! ## What the nodes stand for -/

/-- The first failure in two lists is that of the first list, or else that of the second. -/
theorem stmts_append (xs ys : List Node) :
    stmts (xs ++ ys) = do
      let first ← stmts xs
      let rest ← stmts ys
      return first ++ rest := by
  induction xs with
  | nil =>
    rw [List.nil_append, stmts]
    cases stmts ys <;> rfl
  | cons node xs ih =>
    rw [List.cons_append, stmts, stmts, ih]
    cases node.toStmts with
    | error m => rfl
    | ok here =>
      cases stmts xs with
      | error m => rfl
      | ok first =>
        cases stmts ys with
        | error m => rfl
        | ok rest => exact congrArg Except.ok (List.append_assoc here first rest).symm

@[simp]
theorem stmts_singleton (node : Node) : stmts [node] = node.toStmts := by
  rw [stmts, stmts]
  cases node.toStmts with
  | error m => rfl
  | ok ss => exact congrArg Except.ok (List.append_nil ss)

theorem toStmts_of_isGroup {node : Node} (h : node.isGroup = true) :
    node.toStmts = stmts node.children := by
  obtain ⟨kind, attributes, children⟩ := node
  cases kind with
  | stmtList => rw [toStmts]
  | stmt => rw [toStmts]
  | _ => cases h

/-- If a node stands for the same without the groups below it, then so does what takes its place. -/
theorem stmts_spread_of {node : Node} (h : node.loosen.toStmts = node.toStmts) :
    stmts node.spread = node.toStmts := by
  unfold spread
  by_cases hgroup : node.isGroup = true
  · rw [if_pos hgroup, ← h, toStmts_of_isGroup (node.isGroup_loosen.trans hgroup)]
  · rw [if_neg hgroup, stmts_singleton, h]

theorem stmts_flat_of {nodes : List Node} (h : ∀ c ∈ nodes, c.loosen.toStmts = c.toStmts) :
    stmts (flat nodes) = stmts nodes := by
  induction nodes with
  | nil => rfl
  | cons node nodes ih =>
    obtain ⟨hnode, hnodes⟩ := List.forall_mem_cons.mp h
    rw [flat]
    show stmts (node.spread ++ flat nodes) = _
    rw [stmts_append, stmts_spread_of hnode, ih hnodes, stmts]

theorem blocks_loosenEach_of {nodes : List Node} (h : ∀ c ∈ nodes, c.loosen.toStmts = c.toStmts) :
    blocks (loosenEach nodes) = blocks nodes := by
  induction nodes with
  | nil => rfl
  | cons node nodes ih =>
    obtain ⟨hnode, hnodes⟩ := List.forall_mem_cons.mp h
    rw [loosenEach, blocks, blocks, hnode, ih hnodes]

/-- A node stands for the same without the groups below it. -/
theorem toStmts_loosen : ∀ node : Node, node.loosen.toStmts = node.toStmts := by
  refine induction_children fun node ih => ?_
  obtain ⟨kind, attributes, children⟩ := node
  cases kind with
  | stmtList => rw [loosen, toStmts, toStmts, stmts_flat_of ih]
  | stmt => rw [loosen, toStmts, toStmts, stmts_flat_of ih]
  | ifStmt =>
    cases children with
    | nil => rfl
    | cons condition guarded =>
      rw [loosen, toStmts, toStmts,
        blocks_loosenEach_of fun c hc => ih c (List.mem_cons_of_mem _ hc)]
      rfl
  | whileStmt =>
    cases children with
    | nil => rfl
    | cons condition guarded =>
      rw [loosen, toStmts, toStmts, stmts_flat_of fun c hc => ih c (List.mem_cons_of_mem _ hc)]
  | _ => rfl

/-- Groups can be dissolved without a change of what the nodes stand for or of what is wrong with them,
and two lists of nodes stand for the statements of the one and then those of the other. -/
theorem stmts_flat_and_append :
    (∀ nodes : List Node, stmts (flat nodes) = stmts nodes ∧ NoGroups (flat nodes)) ∧
      ∀ xs ys : List Node, stmts (xs ++ ys) = do
        let first ← stmts xs
        let rest ← stmts ys
        return first ++ rest :=
  ⟨fun nodes => ⟨stmts_flat_of fun c _ => c.toStmts_loosen, noGroups_flat nodes⟩, stmts_append⟩

/-- A list is dissolved wherever it stands, but the node around a block of a branch is kept. -/
example :
    flat [(ofKind .stmtList).withChildren [(ofKind .stmt).withChildren [ofKind .functionCall],
        (ofKind .ifStmt).withChildren [ofKind .id,
          (ofKind .stmtList).withChildren [(ofKind .stmt).withChildren [ofKind .assignment]]]]] =
      [ofKind .functionCall,
        (ofKind .ifStmt).withChildren [ofKind .id,
          (ofKind .stmtList).withChildren [ofKind .assignment]]] := by
  rfl

end StaticCheck.Node
