import StaticCheck.Proofs.Tree.Coverage
import StaticCheck.Proofs.Tree.Grammar

/-!
# Operands

The children of a call, an assignment or an array element are its labels and its operands. A label is
an identifier: it may repeat the name of the callee or the target, and is skipped wherever it stands.
By `represents_without_id` nothing else is skipped, as long as there are no more operands than there
is room for: each other child stands for an argument, an index or a value, in the order of the text.
So a variable is an operand only with a node of its own around the identifier (`children_not_kept`).

A comparison is made of its two operands, and by `comparison_keeps_operator_iff` its operator is the one
on the sign between them unless the right operand has another operator, which comes first.
-/

namespace StaticCheck.Node

/-- Putting a tag on an expression changes nothing else. -/
theorem exists_retag_eq (node : Node) (e : Expr) : ∃ tag, node.retag e = e.withTag tag := by
  unfold retag
  cases node.attribute? "argType" with
  | none => exact ⟨e.tag, (e.withTag_tag).symm⟩
  | some name => exact ⟨_, rfl⟩

theorem exists_untagged_of_toExpr {node : Node} {e : Expr} (h : node.toExpr = .ok e) :
    ∃ u tag, node.untagged = .ok u ∧ e = u.withTag tag := by
  rw [toExpr_eq] at h
  obtain ⟨u, hu, rfl⟩ := map_eq_ok_iff.mp h
  obtain ⟨tag, htag⟩ := node.exists_retag_eq u
  exact ⟨u, tag, hu, htag⟩

/-- A composite node without a value is made of its operands. -/
theorem Composite.toExpr_eq {node : Node} (h : node.Composite)
    (hvalue : node.attribute? "value" = none) :
    node.toExpr =
      ((without .comparisonOperator node.children).mapM toExpr >>= node.combine).map
        node.retag := by
  rw [Node.toExpr_eq, untagged_eq_of_other h.not_call h.not_id h.not_element, hvalue]

/-! ## Calls, assignments and array elements -/

/-- What is read of the node is made of these operands, one after the other, and of nothing else: the
arguments of a call, the index and the value of an assignment, the index of an array element. -/
structure Represents (node : Node) (operands : List Node) : Prop where
  callStmt : node.kind = .functionCall → ∀ ss, node.toStmts = .ok ss →
    ∃ callee arguments, ss = [.call callee arguments] ∧ node.callee = .ok callee ∧
      operands.mapM toExpr = .ok arguments
  callExpr : node.kind = .functionCall → ∀ e, node.toExpr = .ok e →
    ∃ tag callee arguments, e = .call tag callee arguments ∧ node.callee = .ok callee ∧
      operands.mapM toExpr = .ok arguments
  assignment : node.kind = .assignment → ∀ ss, node.toStmts = .ok ss →
    ∃ target index value, ss = [.assign target index value] ∧
      node.attribute? "name" = some target ∧ operands.mapM toExpr = .ok (index.toList ++ [value])
  element : node.kind = .arrayElement → ∀ e, node.toExpr = .ok e →
    ∃ tag name index, e = .element tag name index ∧ node.attribute? "name" = some name ∧
      operands.mapM toExpr = .ok [index]

section

variable {node : Node}

theorem exists_call_of_toStmts (hkind : node.kind = .functionCall) {ss : List Stmt}
    (h : node.toStmts = .ok ss) :
    ∃ callee arguments, ss = [.call callee arguments] ∧ node.callee = .ok callee ∧
      (without .id node.children).mapM toExpr = .ok arguments := by
  obtain ⟨kind, attributes, children⟩ := node
  cases hkind
  obtain ⟨s, hs, heq⟩ := bind_eq_ok_iff.mp h
  cases heq
  obtain ⟨callee, hcallee, hrest⟩ := bind_eq_ok_iff.mp hs
  obtain ⟨arguments, harguments, hcall⟩ := bind_eq_ok_iff.mp hrest
  cases hcall
  exact ⟨callee, arguments, rfl, hcallee, harguments⟩

theorem exists_call_of_toExpr (hkind : node.kind = .functionCall) {e : Expr}
    (h : node.toExpr = .ok e) :
    ∃ tag callee arguments, e = .call tag callee arguments ∧ node.callee = .ok callee ∧
      (without .id node.children).mapM toExpr = .ok arguments := by
  obtain ⟨u, tag, hu, rfl⟩ := exists_untagged_of_toExpr h
  unfold untagged at hu
  rw [hkind] at hu
  obtain ⟨callee, hcallee, hrest⟩ := bind_eq_ok_iff.mp hu
  obtain ⟨arguments, harguments, hcall⟩ := bind_eq_ok_iff.mp hrest
  cases hcall
  exact ⟨tag, callee, arguments, rfl, hcallee, harguments⟩

theorem exists_assign_of_toStmts (hkind : node.kind = .assignment)
    (htwo : (without .id node.children).length ≤ 2) {ss : List Stmt} (h : node.toStmts = .ok ss) :
    ∃ target index value, ss = [.assign target index value] ∧
      node.attribute? "name" = some target ∧
      (without .id node.children).mapM toExpr = .ok (index.toList ++ [value]) := by
  obtain ⟨kind, attributes, children⟩ := node
  cases hkind
  obtain ⟨s, hs, heq⟩ := bind_eq_ok_iff.mp h
  cases heq
  obtain ⟨target, htarget, hrest⟩ := bind_eq_ok_iff.mp hs
  have hname := require_eq_ok_iff.mp htarget
  dsimp only at htwo hrest ⊢
  match hoperands : without .id children, htwo with
  | [], _ =>
    rw [hoperands] at hrest
    cases hrest
  | [last], _ =>
    rw [hoperands] at hrest
    obtain ⟨value, hvalue, hassign⟩ := bind_eq_ok_iff.mp hrest
    cases hassign
    exact ⟨target, none, value, rfl, hname, by simp [hvalue]⟩
  | [first, last], _ =>
    rw [hoperands] at hrest
    obtain ⟨index, hindex, hrest⟩ := bind_eq_ok_iff.mp hrest
    obtain ⟨value, hvalue, hassign⟩ := bind_eq_ok_iff.mp hrest
    cases hassign
    refine ⟨target, some index, value, rfl, hname, ?_⟩
    simpa [hindex] using hvalue

theorem exists_element_of_toExpr (hkind : node.kind = .arrayElement)
    (hone : (without .id node.children).length ≤ 1) {e : Expr} (h : node.toExpr = .ok e) :
    ∃ tag name index, e = .element tag name index ∧ node.attribute? "name" = some name ∧
      (without .id node.children).mapM toExpr = .ok [index] := by
  obtain ⟨u, tag, hu, rfl⟩ := exists_untagged_of_toExpr h
  unfold untagged at hu
  rw [hkind] at hu
  obtain ⟨name, hname, hrest⟩ := bind_eq_ok_iff.mp hu
  dsimp only at hrest
  match hoperands : without .id node.children, hone with
  | [], _ =>
    rw [hoperands] at hrest
    cases hrest
  | [only], _ =>
    rw [hoperands] at hrest
    obtain ⟨index, hindex, helement⟩ := bind_eq_ok_iff.mp hrest
    cases helement
    exact ⟨tag, name, index, rfl, require_eq_ok_iff.mp hname, by simp [hindex]⟩

end

/-- A call, an assignment with at most two operands and an array element with one are made of all their
children but identifiers. -/
theorem represents_without_id (node : Node)
    (hassignment : node.kind = .assignment → (without .id node.children).length ≤ 2)
    (helement : node.kind = .arrayElement → (without .id node.children).length ≤ 1) :
    node.Represents (without .id node.children) where
  callStmt hkind _ h := exists_call_of_toStmts hkind h
  callExpr hkind _ h := exists_call_of_toExpr hkind h
  assignment hkind _ h := exists_assign_of_toStmts hkind (hassignment hkind) h
  element hkind _ h := exists_element_of_toExpr hkind (helement hkind) h

/-- An element of an array with these operands. -/
def elementOf (name : String) (operands : List Node) : Node :=
  ((ofKind .arrayElement).withAttribute "name" name).withChildren operands

/-- An assignment to an array with its label is made of the index and the value. -/
theorem represents_labelled_assignment :
    (assignmentTo "a" [idOf "a", one, callOf "size"]).Represents [one, callOf "size"] :=
  represents_without_id (assignmentTo "a" [idOf "a", one, callOf "size"]) (by decide) (by decide)

namespace Represents

variable {node : Node} {operands : List Node} (h : node.Represents operands)

include h

/-- A call has one argument for each operand. -/
theorem length_arguments (hkind : node.kind = .functionCall) {callee : String}
    {arguments : List Expr} (hss : node.toStmts = .ok [.call callee arguments]) :
    operands.length = arguments.length := by
  obtain ⟨callee', arguments', heq, -, hoperands⟩ := h.callStmt hkind _ hss
  cases heq
  exact (length_of_mapM_eq_ok hoperands).symm

/-- An assignment has one operand for its value, and one more if it has an index. -/
theorem length_assignment (hkind : node.kind = .assignment) {target : String} {index : Option Expr}
    {value : Expr} (hss : node.toStmts = .ok [.assign target index value]) :
    operands.length = index.toList.length + 1 := by
  obtain ⟨target', index', value', heq, -, hoperands⟩ := h.assignment hkind _ hss
  cases heq
  simp [← length_of_mapM_eq_ok hoperands]

theorem length_element (hkind : node.kind = .arrayElement) {e : Expr} (he : node.toExpr = .ok e) :
    operands.length = 1 := by
  obtain ⟨tag, name, index, -, -, hoperands⟩ := h.element hkind _ he
  exact (length_of_mapM_eq_ok hoperands).symm

end Represents

/-- The name of the callee or of the target. -/
def ownName? (node : Node) : Option String :=
  match node.kind with
  | .functionCall => node.callee.toOption
  | _ => node.attribute? "name"

/-- The children but for one identifier that repeats the name of the callee or of the target. -/
def unrepeated (node : Node) : List Node :=
  node.children.eraseP fun c => c.is .id && decide (c.attribute? "name" = node.ownName?)

/-- Every child is an operand, but for such an identifier. -/
def KeepsChildren (node : Node) : Prop :=
  node.Represents node.unrepeated

/-- An identifier with another name is no operand of a call, an assignment or an array element either,
and where there are more operands than there is room for, some do not count. -/
theorem children_not_kept :
    ¬((callOf "f").withChildren [idOf "f", idOf "x"]).KeepsChildren ∧
      ¬(assignmentTo "a" [idOf "a", idOf "i", one]).KeepsChildren ∧
      ¬(elementOf "a" [idOf "a", idOf "i", one]).KeepsChildren ∧
      ¬(assignmentTo "a" [idOf "a", one, one, one]).KeepsChildren ∧
      ¬(elementOf "a" [idOf "a", one, one]).KeepsChildren := by
  refine ⟨?argument, ?index, ?elementIndex, ?operands, ?indices⟩
  case argument => exact fun h => absurd (h.length_arguments rfl rfl) (by decide)
  case index => exact fun h => absurd (h.length_assignment rfl rfl) (by decide)
  case elementIndex => exact fun h => absurd (h.length_element rfl rfl) (by decide)
  case operands => exact fun h => absurd (h.length_assignment rfl rfl) (by decide)
  case indices => exact fun h => absurd (h.length_element rfl rfl) (by decide)

/-! ## Comparisons -/

/-- The node compares the two operands: its children are the left one, a sign with the operator and
the right one. -/
structure Compares (node left right : Node) (operator : String) : Prop where
  composite : node.Composite
  no_value : node.attribute? "value" = none
  children : ∃ sign, sign.kind = .comparisonOperator ∧ sign.attribute? "op" = some operator ∧
    node.children = [left, sign, right]
  left : left.kind ≠ .comparisonOperator
  right : right.kind ≠ .comparisonOperator

namespace Compares

variable {node left right : Node} {operator : String} (h : node.Compares left right operator)

include h

theorem without_eq : without .comparisonOperator node.children = [left, right] := by
  obtain ⟨sign, hsign, -, hchildren⟩ := h.children
  simp [without, hchildren, is, hsign, h.left, h.right]

theorem comparison?_eq : node.comparison? = some operator := by
  obtain ⟨sign, hsign, hoperator, hchildren⟩ := h.children
  simp [comparison?, hchildren, is, hsign, h.left, hoperator]

/-- The right operand's own operator comes before that of the sign. -/
theorem operators_eq : node.operators = [(right.attribute? "op").getD operator] := by
  simp only [operators, h.without_eq, List.tail_cons, List.map_singleton, operatorBefore,
    h.comparison?_eq]
  cases right.attribute? "op" <;> rfl

/-- What a comparison is made of. -/
theorem toExpr_eq {l r : Expr} (hl : left.toExpr = .ok l) (hr : right.toExpr = .ok r) :
    node.toExpr =
      .ok (node.retag (.binary .unlabelled l ((right.attribute? "op").getD operator) r)) := by
  have hoperands : [left, right].mapM toExpr = .ok [l, r] := by simp [hl, hr]
  have hcombine : node.combine [l, r] =
      .ok (.binary .unlabelled l ((right.attribute? "op").getD operator) r) := by
    simp [combine, h.operators_eq, chain]
  rw [h.composite.toExpr_eq h.no_value, h.without_eq, hoperands]
  exact congrArg (Except.map node.retag) hcombine

end Compares

/-- A comparison of two operands that can be read is made of these and of one operator: it is that of
the sign if, and only if, the right operand has none of its own or the same. -/
theorem comparison_keeps_operator_iff (node left right : Node) (operator : String) (l r : Expr)
    (h : node.Compares left right operator) (hl : left.toExpr = .ok l) (hr : right.toExpr = .ok r) :
    (∃ tag, node.toExpr = .ok (.binary tag l ((right.attribute? "op").getD operator) r)) ∧
      ((∃ tag, node.toExpr = .ok (.binary tag l operator r)) ↔
        right.attribute? "op" = none ∨ right.attribute? "op" = some operator) := by
  obtain ⟨tag, htag⟩ :=
    node.exists_retag_eq (.binary .unlabelled l ((right.attribute? "op").getD operator) r)
  have hread : node.toExpr = .ok (.binary tag l ((right.attribute? "op").getD operator) r) := by
    rw [h.toExpr_eq hl hr, htag]
    rfl
  have hsame : (right.attribute? "op").getD operator = operator ↔
      right.attribute? "op" = none ∨ right.attribute? "op" = some operator := by
    rw [Option.getD_eq_iff, and_iff_left rfl, or_comm]
  refine ⟨⟨tag, hread⟩, ?_⟩
  rw [← hsame]
  constructor
  · intro hkept
    obtain ⟨tag', hkept⟩ := hkept
    rw [hread] at hkept
    injection hkept with hexpr
    injection hexpr
  · intro hoperator
    rw [hoperator] at hread
    exact ⟨tag, hread⟩

/-- A comparison of the variable with this operand. -/
def lessThan (name : String) (right : Node) : Node :=
  ((ofKind .comparison).withAttribute "argType" "Boolean").withChildren
    [idOf name, (ofKind .comparisonOperator).withAttribute "op" "<", right]

theorem compares_lessThan {name : String} {right : Node} (h : right.kind ≠ .comparisonOperator) :
    (lessThan name right).Compares (idOf name) right "<" where
  composite := ⟨nofun, nofun, nofun⟩
  no_value := rfl
  children := ⟨_, rfl, rfl, rfl⟩
  left := nofun
  right := h

/-- A literal has no operator of its own, so that the comparison keeps its own. -/
theorem lessThan_one_keeps_operator :
    ∃ tag, (lessThan "a" one).toExpr =
      .ok (.binary tag (.var .unlabelled "a") "<" (.literal .integer "1")) :=
  (comparison_keeps_operator_iff (lessThan "a" one) (idOf "a") one "<" _ _
    (compares_lessThan (by decide)) rfl rfl).2.mpr (.inl rfl)

/-- A negative bound. -/
def minusFive : Node :=
  ((ofKind .unary).withAttribute "op" "-").withChildren
    [(ofKind .operand).withAttribute "value" "5"]

/-- The minus in front of the bound takes the place of the sign. -/
theorem lessThan_minusFive_loses_operator :
    (lessThan "a" minusFive).Compares (idOf "a") minusFive "<" ∧
      (lessThan "a" minusFive).toExpr = .ok (.binary .boolean (.var .unlabelled "a") "-"
        (.unary .unlabelled "-" (.literal .unlabelled "5"))) ∧
      ¬∃ tag l r, (lessThan "a" minusFive).toExpr = .ok (.binary tag l "<" r) := by
  refine ⟨compares_lessThan (by decide), rfl, fun h => ?_⟩
  obtain ⟨tag, l, r, hkept⟩ := h
  injection hkept with hsame
  injection hsame with _ _ hoperator
  exact absurd hoperator (by decide)

end StaticCheck.Node
