import StaticCheck.Expr
import StaticCheck.Rejection
import StaticCheck.Tree.Node

/-!
# Expressions of a syntax tree

`Node.toExpr` reads the expression that a node stands for. Calls, variables and
array elements are read off their own kinds of nodes. A node of another kind with
a `value` is a literal; without one it combines its operands, which are all its
children but comparison operators (`Node.combine`): one operand stands for itself
or is put under a unary operator, more of them are chained from the left.

The attribute `argType` of a node gives the tag of its expression. Where it is
missing, a node that stands for its only operand keeps that operand's tag.

The recursive functions walk a tree and its lists of children side by side.
`exprs_eq` and `firstExpr_eq` say what they do to a list, and `toExpr_eq` what the
expression of a node is, all in the operations of lists.
-/

namespace StaticCheck.Node

/-- The attribute `key`, which the node needs. -/
def require (node : Node) (key : String) : Except Malformation String :=
  match node.attribute? key with
  | some value => .ok value
  | none => .error (.missingAttribute node.kind.name key)

/-- The refusal of a node where `expected` has to stand. -/
def unexpected (node : Node) (expected : String) : Malformation :=
  .unexpectedNode expected node.kind.name

/-- The children of a kind other than `kind`. -/
def without (kind : NodeKind) (nodes : List Node) : List Node :=
  nodes.filter fun node => !node.is kind

/-- The callee of a call: its function name, or the name on its first identifier. -/
def callee (node : Node) : Except Malformation String :=
  match node.attribute? "funcName" with
  | some name => .ok name
  | none =>
    match (node.children.find? (·.is .id)).bind (·.attribute? "name") with
    | some name => .ok name
    | none => .error (.missingAttribute node.kind.name "funcName")

/-- The operator on the first comparison operator among the children. -/
def comparison? (node : Node) : Option String :=
  (node.children.find? (·.is .comparisonOperator)).bind (·.attribute? "op")

/-- The operator in front of the operand `right` of a chain: its own, or that of the comparison, or
that of the chain. -/
def operatorBefore (node right : Node) : String :=
  ((right.attribute? "op").or (node.comparison?.or (node.attribute? "op"))).getD ""

/-- The operators of a chain, one in front of each operand but the first. -/
def operators (node : Node) : List String :=
  (without .comparisonOperator node.children).tail.map node.operatorBefore

/-- The operator that a node puts on its only operand. -/
def unaryOperator? (node : Node) : Option String :=
  match node.kind with
  | .negation => some ((node.attribute? "op").getD "not")
  | .unary => node.attribute? "op"
  | _ => none

/-- Combines operands from the left. -/
def chain (first : Expr) (rest : List (String × Expr)) : Expr :=
  rest.foldl (fun left step => .binary .unlabelled left step.1 step.2) first

/-- The expression that a node makes of its operands. -/
def combine (node : Node) : List Expr → Except Malformation Expr
  | [] => .error (node.unexpected "expression")
  | [operand] =>
    match node.unaryOperator? with
    | some operator => .ok (.unary .unlabelled operator operand)
    | none => .ok operand
  | first :: rest => .ok (chain first (node.operators.zip rest))

/-- The expression under the tag that the node gives it, if it gives one. -/
def retag (node : Node) (e : Expr) : Expr :=
  match node.attribute? "argType" with
  | some name => e.withTag (.ofName name e.callee?)
  | none => e

mutual

/-- The expression that a node stands for. -/
def toExpr : Node → Except Malformation Expr
  | ⟨kind, attributes, children⟩ =>
    let node : Node := ⟨kind, attributes, children⟩
    Except.map node.retag <|
      match kind with
      | .functionCall => do
        let callee ← node.callee
        let arguments ← exprs .id children
        return .call .unlabelled callee arguments
      | .id => do
        let name ← node.require "name"
        return .var .unlabelled name
      | .arrayElement => do
        let name ← node.require "name"
        let index ← (firstExpr .id children).getD (.error (node.unexpected "array index"))
        return .element .unlabelled name index
      | _ =>
        match node.attribute? "value" with
        | some value => return .literal .unlabelled value
        | none => do
          let operands ← exprs .comparisonOperator children
          node.combine operands

/-- The expressions of the nodes of another kind than `skipped`, up to the first failure. -/
def exprs (skipped : NodeKind) : List Node → Except Malformation (List Expr)
  | [] => return []
  | node :: nodes =>
    if node.is skipped then exprs skipped nodes
    else do
      let e ← node.toExpr
      let es ← exprs skipped nodes
      return e :: es

/-- The expression of the first node of another kind than `skipped`. -/
def firstExpr (skipped : NodeKind) : List Node → Option (Except Malformation Expr)
  | [] => none
  | node :: nodes =>
    if node.is skipped then firstExpr skipped nodes
    else some node.toExpr

end

theorem exprs_eq (skipped : NodeKind) (nodes : List Node) :
    exprs skipped nodes = (without skipped nodes).mapM toExpr := by
  induction nodes with
  | nil => rfl
  | cons node nodes ih =>
    unfold exprs without
    by_cases h : node.is skipped
    · rw [if_pos h, List.filter_cons_of_neg (by simp [h]), ih]
      rfl
    · rw [if_neg h, List.filter_cons_of_pos (by simp [h]), List.mapM_cons, ih]
      rfl

theorem firstExpr_eq (skipped : NodeKind) (nodes : List Node) :
    firstExpr skipped nodes = ((without skipped nodes).head?).map toExpr := by
  induction nodes with
  | nil => rfl
  | cons node nodes ih =>
    unfold firstExpr without
    by_cases h : node.is skipped
    · rw [if_pos h, List.filter_cons_of_neg (by simp [h]), ih]
      rfl
    · rw [if_neg h, List.filter_cons_of_pos (by simp [h])]
      rfl

/-- The expression of a node before it gets the node's tag. -/
def untagged (node : Node) : Except Malformation Expr :=
  match node.kind with
  | .functionCall => do
    let callee ← node.callee
    let arguments ← (without .id node.children).mapM toExpr
    return .call .unlabelled callee arguments
  | .id => do
    let name ← node.require "name"
    return .var .unlabelled name
  | .arrayElement => do
    let name ← node.require "name"
    let index ← match (without .id node.children).head? with
      | none => .error (node.unexpected "array index")
      | some index => index.toExpr
    return .element .unlabelled name index
  | _ =>
    match node.attribute? "value" with
    | some value => return .literal .unlabelled value
    | none => do
      let operands ← (without .comparisonOperator node.children).mapM toExpr
      node.combine operands

/-- The expression of a node is made of those of its children, and gets the node's tag. -/
theorem toExpr_eq (node : Node) : node.toExpr = node.untagged.map node.retag := by
  obtain ⟨kind, attributes, children⟩ := node
  unfold toExpr untagged
  refine congrArg (Except.map _) ?_
  cases kind <;> simp only [exprs_eq, firstExpr_eq]
  cases (without .id children).head? <;> rfl

end StaticCheck.Node
