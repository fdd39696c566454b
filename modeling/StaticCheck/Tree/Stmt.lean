import StaticCheck.Stmt
import StaticCheck.Tree.Expr

/-!
# Statements of a syntax tree

A node stands for a list of statements (`Node.toStmts`): statement lists and
single-statement nodes for the statements below them, every other kind for one.
Of an assignment's operands the last is the value and the first of several the
index. Of the children of a conditional node the first is the condition; each
further one is a block of a branch, of which there are at most two, or a part of
the body of a loop.
-/

namespace StaticCheck.Node

/-- The assignment that a node stands for; operands between the index and the value do not
count. -/
def toAssignment (node : Node) : Except Malformation Stmt := do
  let target ← node.require "name"
  match without .id node.children with
  | [] => .error (node.unexpected "assignment value")
  | [value] =>
    let value ← value.toExpr
    return .assign target none value
  | index :: next :: rest =>
    let index ← index.toExpr
    let value ← (rest.getLastD next).toExpr
    return .assign target (some index) value

/-- The call statement that a node stands for. -/
def toCall (node : Node) : Except Malformation Stmt := do
  let callee ← node.callee
  let arguments ← (without .id node.children).mapM toExpr
  return .call callee arguments

/-- The branch on `condition` with the given blocks. -/
def toBranch (node : Node) (condition : Expr) : List (List Stmt) → Except Malformation Stmt
  | [] => .ok (.branch condition [] none)
  | [thenBody] => .ok (.branch condition thenBody none)
  | [thenBody, elseBody] => .ok (.branch condition thenBody (some elseBody))
  | _ => .error (node.unexpected "then and optional else block")

mutual

/-- The statements that a node stands for. -/
def toStmts : Node → Except Malformation (List Stmt)
  | ⟨.stmtList, _, children⟩ => stmts children
  | ⟨.stmt, _, children⟩ => stmts children
  | ⟨.assignment, attributes, children⟩ => do
    let stmt ← toAssignment ⟨.assignment, attributes, children⟩
    return [stmt]
  | ⟨.functionCall, attributes, children⟩ => do
    let stmt ← toCall ⟨.functionCall, attributes, children⟩
    return [stmt]
  | ⟨.ifStmt, attributes, []⟩ => .error (unexpected ⟨.ifStmt, attributes, []⟩ "condition")
  | ⟨.ifStmt, attributes, first :: rest⟩ => do
    let condition ← first.toExpr
    let blocks ← blocks rest
    let stmt ← toBranch ⟨.ifStmt, attributes, first :: rest⟩ condition blocks
    return [stmt]
  | ⟨.whileStmt, attributes, []⟩ => .error (unexpected ⟨.whileStmt, attributes, []⟩ "condition")
  | ⟨.whileStmt, _, first :: rest⟩ => do
    let condition ← first.toExpr
    let body ← stmts rest
    return [.loop condition body]
  | ⟨kind, attributes, children⟩ => .error (unexpected ⟨kind, attributes, children⟩ "statement")

/-- The statements of a list of nodes, one after the other. -/
def stmts : List Node → Except Malformation (List Stmt)
  | [] => return []
  | node :: nodes => do
    let first ← node.toStmts
    let rest ← stmts nodes
    return first ++ rest

/-- The statements of a list of nodes, those of each node by themselves. -/
def blocks : List Node → Except Malformation (List (List Stmt))
  | [] => return []
  | node :: nodes => do
    let block ← node.toStmts
    let rest ← blocks nodes
    return block :: rest

end

theorem blocks_eq (nodes : List Node) : blocks nodes = nodes.mapM toStmts := by
  induction nodes with
  | nil => rfl
  | cons node nodes ih =>
    rw [List.mapM_cons, ← ih]
    rfl

/-- The statements of nodes are those of the single nodes, put together. -/
theorem stmts_eq (nodes : List Node) : stmts nodes = (nodes.mapM toStmts).map List.flatten := by
  induction nodes with
  | nil => rfl
  | cons node nodes ih =>
    rw [List.mapM_cons]
    unfold stmts
    rw [ih]
    cases node.toStmts with
    | error e => rfl
    | ok first => cases nodes.mapM toStmts <;> rfl

end StaticCheck.Node
