import Mathlib.Data.List.Basic
import Mathlib.Data.List.Induction
import StaticCheck.Proofs.Tree.Operands

/-!
# What a node makes of its operands

A composite node without a value stands for what it makes of its operands.

Two operands or more become a chain, `a₁ op₂ a₂ … opₖ aₖ`, which associates to the left:
`toExpr_of_operates` says that it is a spine of one binary expression for each operand but the first
(`Expr.LeftSpine`), with the operands and the operators in the order of the text, and that the tag of
the node is on the outermost one alone.

A single operand stands for itself, unless the node puts an operator on it. Such a node is a wrapper
(`Node.Wraps`), and wrappers may be put around each other. By `toExpr_wrapped` they change nothing but
the tag, and of the tags the outermost one counts.
-/

namespace StaticCheck

/-- An operator of a chain with the operand behind it, under the tag of all that stands up to there. -/
structure Link where
  tag : Tag
  operator : String
  operand : Expr

namespace Link

/-- The operator and the operand of a step under a tag. -/
def under (tag : Tag) (step : String × Expr) : Link :=
  ⟨tag, step.1, step.2⟩

@[simp]
theorem tag_under (tag : Tag) (step : String × Expr) : (under tag step).tag = tag :=
  rfl

@[simp]
theorem operator_under (tag : Tag) (step : String × Expr) : (under tag step).operator = step.1 :=
  rfl

@[simp]
theorem operand_under (tag : Tag) (step : String × Expr) : (under tag step).operand = step.2 :=
  rfl

end Link

/-- The expression is made of `first` by the links, one after the other: each link puts what was made
so far to the left of its operator. -/
inductive Expr.LeftSpine (first : Expr) : List Link → Expr → Prop
  | first : LeftSpine first [] first
  | link {links : List Link} {left : Expr} (inside : LeftSpine first links left) (link : Link) :
      LeftSpine first (links ++ [link]) (.binary link.tag left link.operator link.operand)

namespace Node

variable {node : Node}

/-! ## Chains of operators -/

/-- The tag of a node on an expression that is no call. -/
def ownTag (node : Node) : Tag :=
  match node.attribute? "argType" with
  | some name => .ofName name none
  | none => .other "Unknown"

/-- The node combines two operands or more, and there is no sign of a comparison among them. -/
structure Operates (node : Node) : Prop where
  composite : node.Composite
  no_value : node.attribute? "value" = none
  no_sign : ∀ c ∈ node.children, c.kind ≠ .comparisonOperator
  two : 2 ≤ node.children.length

/-- The expression is a chain of what the children of the node stand for. An operator is that of the
operand behind it, or else that of the node, or else empty. -/
structure IsChain (node : Node) (first : Expr) (links : List Link) (e : Expr) : Prop where
  spine : first.LeftSpine links e
  count : links.length + 1 = node.children.length
  operands : node.children.map toExpr = (first :: links.map Link.operand).map .ok
  operators : links.map Link.operator =
    node.children.tail.map fun c => ((c.attribute? "op").or (node.attribute? "op")).getD ""
  inner : ∀ link ∈ links.dropLast, link.tag = .other "Unknown"
  outer : links.getLast?.map Link.tag = some node.ownTag
  /-- A chain is no call, so that a tag of calls on it has no callee. -/
  no_callee : node.attribute? "argType" = some "FunctionCall" →
    links.getLast?.map Link.tag = some (.other "FunctionCall")

/-- The nodes are read from left to right up to one that cannot be read. -/
def FirstFailure (nodes : List Node) (m : Malformation) : Prop :=
  ∃ before c after, nodes = before ++ c :: after ∧ (∀ b ∈ before, ∃ e, b.toExpr = .ok e) ∧
    c.toExpr = .error m

@[simp]
theorem chain_concat (first : Expr) (steps : List (String × Expr)) (last : String × Expr) :
    chain first (steps ++ [last]) = .binary .unlabelled (chain first steps) last.1 last.2 := by
  simp [chain]

/-- Combining from the left makes a spine without tags. -/
theorem leftSpine_chain (first : Expr) (steps : List (String × Expr)) :
    first.LeftSpine (steps.map (Link.under .unlabelled)) (chain first steps) := by
  induction steps using List.reverseRecOn with
  | nil => exact .first
  | append_singleton steps last ih =>
    simpa using ih.link (Link.under .unlabelled last)

@[simp]
theorem retag_binary (node : Node) (left : Expr) (operator : String) (right : Expr) :
    node.retag (.binary .unlabelled left operator right) =
      .binary node.ownTag left operator right := by
  unfold retag ownTag
  cases node.attribute? "argType" <;> rfl

/-- The tag of a node on a chain goes on its last link. -/
theorem leftSpine_retag_chain (node : Node) (first : Expr) (front : List (String × Expr))
    (last : String × Expr) :
    first.LeftSpine (front.map (Link.under .unlabelled) ++ [Link.under node.ownTag last])
      (node.retag (chain first (front ++ [last]))) := by
  simpa using (leftSpine_chain first front).link (Link.under node.ownTag last)

namespace Operates

variable (h : node.Operates)

include h

theorem without_eq : without .comparisonOperator node.children = node.children :=
  without_eq_self h.no_sign

theorem toExpr_eq :
    node.toExpr = (node.children.mapM toExpr >>= node.combine).map node.retag := by
  rw [h.composite.toExpr_eq h.no_value, h.without_eq]

theorem operators_eq : node.operators =
    node.children.tail.map fun c => ((c.attribute? "op").or (node.attribute? "op")).getD "" := by
  have hsign : node.children.find? (·.is .comparisonOperator) = none := by
    simpa [List.find?_eq_none] using h.no_sign
  have hcomparison : node.comparison? = none := by simp [comparison?, hsign]
  unfold operators
  rw [h.without_eq]
  refine List.map_congr_left fun c _ => ?_
  simp [operatorBefore, hcomparison]

/-- What two operands or more are combined to. -/
theorem combine_eq {first : Expr} {rest : List Expr}
    (hlength : rest.length + 1 = node.children.length) :
    node.combine (first :: rest) = .ok (chain first (node.operators.zip rest)) := by
  cases rest with
  | nil =>
    have htwo := h.two
    simp only [List.length_nil] at hlength
    omega
  | cons second rest => rfl

/-- Each operand but the first has one operator in front of it. -/
theorem length_operators : node.operators.length + 1 = node.children.length := by
  have htwo := h.two
  simp only [h.operators_eq, List.length_map, List.length_tail]
  omega

/-- The chain of these steps is that of the children, under the tag of the node. -/
theorem isChain_of_steps {first : Expr} {front : List (String × Expr)} {last : String × Expr}
    (hes : node.children.mapM toExpr = .ok (first :: (front ++ [last]).map Prod.snd))
    (hoperators : (front ++ [last]).map Prod.fst = node.operators) :
    node.IsChain first (front.map (Link.under .unlabelled) ++ [Link.under node.ownTag last])
      (node.retag (chain first (front ++ [last]))) := by
  have hoperands : (front.map (Link.under .unlabelled) ++ [Link.under node.ownTag last]).map
      Link.operand = (front ++ [last]).map Prod.snd := by
    simp [Function.comp_def]
  constructor
  case spine => exact node.leftSpine_retag_chain first front last
  case count =>
    rw [← length_of_mapM_eq_ok hes, ← hoperands, List.length_cons, List.length_map]
  case operands =>
    rw [hoperands]
    exact mapM_eq_ok_iff_map.mp hes
  case operators =>
    rw [← h.operators_eq, ← hoperators]
    simp [Function.comp_def]
  case inner =>
    intro link hlink
    rw [List.dropLast_concat] at hlink
    obtain ⟨step, -, rfl⟩ := List.mem_map.mp hlink
    rfl
  case outer => simp
  case no_callee =>
    intro hcall
    simp [ownTag, hcall, Tag.ofName]

/-- What a node makes of two operands or more is a chain under its tag. -/
theorem exists_isChain {es : List Expr} (hes : node.children.mapM toExpr = .ok es) :
    ∃ first links e, node.toExpr = .ok e ∧ node.IsChain first links e := by
  have htwo := h.two
  have hlength := length_of_mapM_eq_ok hes
  have hoperators := h.length_operators
  cases es with
  | nil =>
    rw [List.length_nil] at hlength
    omega
  | cons first rest =>
    rw [List.length_cons] at hlength
    have hsnd : (node.operators.zip rest).map Prod.snd = rest := List.map_snd_zip (by omega)
    have hfst : (node.operators.zip rest).map Prod.fst = node.operators :=
      List.map_fst_zip (by omega)
    have hchain : node.toExpr = .ok (node.retag (chain first (node.operators.zip rest))) := by
      rw [h.toExpr_eq, hes]
      show (node.combine (first :: rest)).map node.retag = _
      rw [h.combine_eq hlength]
      rfl
    rcases List.eq_nil_or_concat' (node.operators.zip rest) with hnone | ⟨front, last, hsteps⟩
    · rw [hnone] at hsnd
      rw [← hsnd] at hlength
      simp at hlength
      omega
    · -- the tag of the node goes on the last step, so that it is told apart from the others
      rw [hsteps] at hsnd hfst hchain
      rw [← hsnd] at hes
      exact ⟨first, _, _, hchain, h.isChain_of_steps hes hfst⟩

end Operates

/-- Two operands or more are chained from the left if all of them can be read, and otherwise the first
that cannot be read is what is wrong. -/
theorem toExpr_of_operates (node : Node) (h : node.Operates) :
    ((∀ c ∈ node.children, ∃ e, c.toExpr = .ok e) →
      ∃ first links e, node.toExpr = .ok e ∧ node.IsChain first links e) ∧
    ∀ m, node.toExpr = .error m ↔ FirstFailure node.children m := by
  refine ⟨fun hread => ?_, fun m => ?_⟩
  · obtain ⟨es, hes⟩ := exists_mapM_eq_ok_iff.mpr hread
    exact h.exists_isChain hes
  · have hfails : node.toExpr = .error m ↔ node.children.mapM toExpr = .error m := by
      cases hes : node.children.mapM toExpr with
      | error d =>
        rw [h.toExpr_eq, hes]
        show Except.error d = Except.error m ↔ _
        rw [Except.error.injEq, Except.error.injEq]
      | ok es =>
        obtain ⟨first, links, e, he, -⟩ := h.exists_isChain hes
        rw [he]
        exact iff_of_false nofun nofun
    exact hfails.trans mapM_eq_error_iff

/-- The sum of a number and a variable, less another number. -/
def sumLessOne : Node :=
  (((ofKind .arithmExp).withAttribute "op" "+").withAttribute "argType" "Integer").withChildren
    [one, idOf "y", one.withAttribute "op" "-"]

/-- The sum is the left operand of the difference. -/
theorem toExpr_sumLessOne :
    sumLessOne.Operates ∧ (∀ c ∈ sumLessOne.children, ∃ e, c.toExpr = .ok e) ∧
      ∃ first links e, sumLessOne.toExpr = .ok e ∧ sumLessOne.IsChain first links e ∧
        e = .binary .integer
          (.binary .unlabelled (.literal .integer "1") "+" (.var .unlabelled "y")) "-"
          (.literal .integer "1") := by
  have hoperates : sumLessOne.Operates := ⟨⟨nofun, nofun, nofun⟩, rfl, by decide, by decide⟩
  have hread : ∀ c ∈ sumLessOne.children, ∃ e, c.toExpr = .ok e :=
    List.forall_mem_cons.mpr ⟨⟨_, rfl⟩, List.forall_mem_cons.mpr ⟨⟨_, rfl⟩,
      List.forall_mem_cons.mpr ⟨⟨_, rfl⟩, nofun⟩⟩⟩
  obtain ⟨first, links, e, he, hchain⟩ := (toExpr_of_operates sumLessOne hoperates).1 hread
  refine ⟨hoperates, hread, first, links, e, he, hchain, ?_⟩
  cases he
  rfl

/-! ## Wrappers -/

/-- The node stands for what its only operand stands for, under its own tag if it has one. -/
structure Wraps (node inner : Node) : Prop where
  composite : node.Composite
  not_negation : node.kind ≠ .negation
  no_operator : node.kind = .unary → node.attribute? "op" = none
  no_value : node.attribute? "value" = none
  only : without .comparisonOperator node.children = [inner]

/-- The node is made of `core` and of wrappers around it, from the outermost to the innermost. -/
inductive Wrapped (core : Node) : List Node → Node → Prop
  | core : Wrapped core [] core
  | wrapper {wrappers : List Node} {node inner : Node} (here : node.Wraps inner)
      (inside : Wrapped core wrappers inner) : Wrapped core (node :: wrappers) node

/-- The tag of an expression within wrappers: that of the outermost wrapper that has one, with the
callee of the expression if it is a call, and its own tag if there is no such wrapper. -/
def tagWithin (wrappers : List Node) (e : Expr) : Tag :=
  match wrappers.findSome? (·.attribute? "argType") with
  | some name => .ofName name e.callee?
  | none => e.tag

namespace Wraps

variable {inner : Node}

theorem unaryOperator?_eq (h : node.Wraps inner) : node.unaryOperator? = none := by
  unfold unaryOperator?
  split
  · next hkind => exact absurd hkind h.not_negation
  · next hkind => exact h.no_operator hkind
  · rfl

/-- One wrapper hands on what stands within it, and puts its tag on it. -/
theorem toExpr_eq (h : node.Wraps inner) : node.toExpr = inner.toExpr.map node.retag := by
  rw [h.composite.toExpr_eq h.no_value, h.only, List.mapM_cons]
  cases inner.toExpr with
  | error m => rfl
  | ok e =>
    show (node.combine [e]).map node.retag = _
    unfold combine
    dsimp only
    rw [h.unaryOperator?_eq]

end Wraps

/-- A tag from further out takes the place of one from within. -/
theorem retag_withTag_tagWithin (node : Node) (wrappers : List Node) (e : Expr) :
    node.retag (e.withTag (tagWithin wrappers e)) = e.withTag (tagWithin (node :: wrappers) e) := by
  unfold retag tagWithin
  rw [List.findSome?_cons]
  cases node.attribute? "argType" with
  | none => rfl
  | some name => simp

/-- Within any wrappers a node stands for what it stands for by itself, under the tag of the outermost
wrapper that has one. -/
theorem toExpr_wrapped (core node : Node) (wrappers : List Node) (h : Wrapped core wrappers node) :
    node.toExpr = core.toExpr.map fun e => e.withTag (tagWithin wrappers e) := by
  induction h with
  | core =>
    cases core.toExpr with
    | error m => rfl
    | ok e => simp [tagWithin]
  | @wrapper wrappers node inner here _ ih =>
    rw [here.toExpr_eq, ih]
    cases core.toExpr with
    | error m => rfl
    | ok e => simp [retag_withTag_tagWithin]

/-- A node of the kind around another one. -/
def around (kind : NodeKind) (inner : Node) : Node :=
  (ofKind kind).withChildren [inner]

/-- The term around a call says that it is a number, and the sum around the term that it is a call. -/
def sumOfCall : Node :=
  (around .arithmExp ((around .term (callOf "size")).withAttribute "argType" "Integer")).withAttribute
    "argType" "FunctionCall"

/-- The outermost tag is that of the sum, and the callee that of the call. -/
theorem toExpr_sumOfCall :
    ∃ wrappers, Wrapped (callOf "size") wrappers (around .expr sumOfCall) ∧ wrappers.length = 3 ∧
      (around .expr sumOfCall).toExpr = .ok (.call (.functionCall "size") "size" []) := by
  have hterm : Wrapped (callOf "size") [_]
      ((around .term (callOf "size")).withAttribute "argType" "Integer") :=
    .wrapper ⟨⟨nofun, nofun, nofun⟩, nofun, nofun, rfl, rfl⟩ .core
  have hsum : Wrapped (callOf "size") [_, _] sumOfCall :=
    .wrapper ⟨⟨nofun, nofun, nofun⟩, nofun, nofun, rfl, rfl⟩ hterm
  have hall : Wrapped (callOf "size") [_, _, _] (around .expr sumOfCall) :=
    .wrapper ⟨⟨nofun, nofun, nofun⟩, nofun, nofun, rfl, rfl⟩ hsum
  exact ⟨_, hall, rfl, toExpr_wrapped _ _ _ hall⟩

end Node

end StaticCheck
