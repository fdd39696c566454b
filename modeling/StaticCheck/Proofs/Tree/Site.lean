import StaticCheck.Proofs.Body.Events
import StaticCheck.Proofs.Tree.Layout
import StaticCheck.Proofs.Tree.Traversal
import StaticCheck.Tree.Stmt

/-!
# What is read of a body

A node in the body of a tree is read as a statement or as an expression (`Site`), and what is made of
it comes from some of its children, each of which is read in one of the two ways again
(`Site.parts`). The other children are not read: the identifier of a call, a comparison operator, what
stands below a node with a value, and operands between those that count.

The checker looks at a site as it looks at a body, event by event. `Site.events_eq` says which events
those are: the one that the site has by itself if it is an assignment or a call, and then the events
of its parts.
-/

namespace StaticCheck

/-- What a node in a body is read as. -/
inductive Position where
  | statement
  | expression
  deriving DecidableEq

/-- A node in a body together with what it is read as. -/
structure Site where
  position : Position
  node : Node
  deriving DecidableEq

namespace Node

/-- The operands of an assignment that count: the last is the value, and the first of several is the
index. -/
def assigned (node : Node) : List Node :=
  match without .id node.children with
  | [] => []
  | [value] => [value]
  | index :: next :: rest => [index, rest.getLastD next]

/-- The children from which the expression of a node is made. -/
def operands (node : Node) : List Node :=
  match node.kind with
  | .functionCall => without .id node.children
  | .id => []
  | .arrayElement => (without .id node.children).head?.toList
  | _ =>
    match node.attribute? "value" with
    | some _ => []
    | none => without .comparisonOperator node.children

end Node

namespace Site

/-- Nodes that are read as statements. -/
def statements (nodes : List Node) : List Site :=
  nodes.map (Site.mk .statement)

/-- Nodes that are read as expressions. -/
def expressions (nodes : List Node) : List Site :=
  nodes.map (Site.mk .expression)

/-- The sites from which a site is made, in the order of the text. -/
def parts : Site → List Site
  | ⟨.expression, node⟩ => expressions node.operands
  | ⟨.statement, node⟩ =>
    match node.kind, node.children with
    | .stmtList, children => statements children
    | .stmt, children => statements children
    | .assignment, _ => expressions node.assigned
    | .functionCall, children => expressions (Node.without .id children)
    | .ifStmt, condition :: guarded => ⟨.expression, condition⟩ :: statements guarded
    | .whileStmt, condition :: guarded => ⟨.expression, condition⟩ :: statements guarded
    | _, _ => []

/-- What the checker looks at in a site, if it can be read. -/
def events : Site → Except Malformation (List Event)
  | ⟨.expression, node⟩ => node.toExpr.map fun e => Stmt.callEvents [e]
  | ⟨.statement, node⟩ => node.toStmts.map Stmt.eventsEach

/-- The events that a site has by itself: a call has one for its callee, and an assignment that is
read as a statement one for its target. -/
def Own (s : Site) (own : List Event) : Prop :=
  match s.position, s.node.kind with
  | _, .functionCall => ∃ callee, s.node.callee = .ok callee ∧ own = [.call callee]
  | .statement, .assignment =>
    ∃ target tag, s.node.attribute? "name" = some target ∧ own = [.assign target tag]
  | _, _ => own = []

/-- What is read of a site: the site itself and what is read of its parts. -/
inductive Reads : Site → Site → Prop
  | here {s : Site} : Reads s s
  | deeper {s t u : Site} (part : t ∈ s.parts) (inside : Reads t u) : Reads s u

end Site

/-! ## Expressions -/

namespace Expr

@[simp]
theorem calls_withTag (tag : Tag) (e : Expr) : (e.withTag tag).calls = e.calls := by
  cases e <;> rfl

end Expr

namespace Node

@[simp]
theorem calls_retag (node : Node) (e : Expr) : (node.retag e).calls = e.calls := by
  unfold retag
  cases node.attribute? "argType" with
  | none => rfl
  | some name => simp

theorem calls_chain (rest : List (String × Expr)) :
    ∀ first : Expr, (chain first rest).calls = first.calls ++ rest.flatMap fun step => step.2.calls := by
  unfold chain
  induction rest with
  | nil => simp
  | cons step rest ih => simp [ih, Expr.calls]

/-- Combining operands loses none of their calls. -/
theorem calls_combine {node : Node} {es : List Expr} {e : Expr}
    (hlength : es.length = (without .comparisonOperator node.children).length)
    (h : node.combine es = .ok e) : e.calls = es.flatMap Expr.calls := by
  cases es with
  | nil => cases h
  | cons first rest =>
    cases rest with
    | nil =>
      have hsingle : [first].flatMap Expr.calls = first.calls := by simp
      rw [hsingle]
      unfold combine at h
      dsimp only at h
      cases hoperator : node.unaryOperator? with
      | none =>
        rw [hoperator] at h
        cases h
        rfl
      | some operator =>
        rw [hoperator] at h
        cases h
        rfl
    | cons second rest =>
      -- each operand but the first has an operator in front of it
      have hoperators : (second :: rest).length ≤ node.operators.length := by
        simp [operators, ← hlength]
      cases h
      rw [calls_chain, List.flatMap_cons]
      have hsnd : (node.operators.zip (second :: rest)).map Prod.snd = second :: rest :=
        List.map_snd_zip hoperators
      rw [← List.flatMap_map Prod.snd, hsnd]

/-- A node that is no call, identifier or array element is a literal or combines its operands. -/
theorem untagged_eq_of_other {node : Node} (hcall : node.kind ≠ .functionCall)
    (hid : node.kind ≠ .id) (helement : node.kind ≠ .arrayElement) :
    node.untagged = match node.attribute? "value" with
      | some value => .ok (.literal .unlabelled value)
      | none => (without .comparisonOperator node.children).mapM toExpr >>= node.combine := by
  unfold untagged
  split
  · next h => exact absurd h hcall
  · next h => exact absurd h hid
  · next h => exact absurd h helement
  · rfl

theorem operands_eq_of_other {node : Node} (hcall : node.kind ≠ .functionCall)
    (hid : node.kind ≠ .id) (helement : node.kind ≠ .arrayElement) :
    node.operands = match node.attribute? "value" with
      | some _ => []
      | none => without .comparisonOperator node.children := by
  unfold operands
  split
  · next h => exact absurd h hcall
  · next h => exact absurd h hid
  · next h => exact absurd h helement
  · rfl

end Node

namespace Site

/-- The events of nodes that are read as expressions are the calls in these. -/
theorem mapM_expressions {nodes : List Node} {es : List Expr}
    (h : nodes.mapM Node.toExpr = .ok es) :
    (expressions nodes).mapM events = .ok (es.map fun e => Stmt.callEvents [e]) := by
  unfold expressions
  rw [List.mapM_map]
  exact mapM_map_eq_ok (fun e => Stmt.callEvents [e]) h

/-- The events of nodes that are read as statements are those of the statements. -/
theorem mapM_statements {nodes : List Node} {blocks : List (List Stmt)}
    (h : nodes.mapM Node.toStmts = .ok blocks) :
    (statements nodes).mapM events = .ok (blocks.map Stmt.eventsEach) := by
  unfold statements
  rw [List.mapM_map]
  exact mapM_map_eq_ok Stmt.eventsEach h

/-- The calls of an expression are those that its node has by itself and those of the operands. -/
def ReadsOperands (node : Node) (e : Expr) : Prop :=
  ∃ own es, Own ⟨.expression, node⟩ own ∧ node.operands.mapM Node.toExpr = .ok es ∧
    Stmt.callEvents [e] = own ++ Stmt.callEvents es

theorem readsOperands_call {node : Node} {e : Expr} (hkind : node.kind = .functionCall)
    (h : node.untagged = .ok e) : ReadsOperands node e := by
  obtain ⟨kind, attributes, children⟩ := node
  cases hkind
  obtain ⟨callee, hcallee, hrest⟩ := bind_eq_ok_iff.mp h
  obtain ⟨arguments, harguments, he⟩ := bind_eq_ok_iff.mp hrest
  cases he
  exact ⟨[.call callee], arguments, ⟨callee, hcallee, rfl⟩, harguments,
    Stmt.callEvents_call _ callee arguments⟩

theorem readsOperands_id {node : Node} {e : Expr} (hkind : node.kind = .id)
    (h : node.untagged = .ok e) : ReadsOperands node e := by
  obtain ⟨kind, attributes, children⟩ := node
  cases hkind
  obtain ⟨name, -, he⟩ := bind_eq_ok_iff.mp h
  cases he
  exact ⟨[], [], rfl, rfl, rfl⟩

theorem readsOperands_element {node : Node} {e : Expr} (hkind : node.kind = .arrayElement)
    (h : node.untagged = .ok e) : ReadsOperands node e := by
  obtain ⟨kind, attributes, children⟩ := node
  cases hkind
  obtain ⟨name, -, hrest⟩ := bind_eq_ok_iff.mp h
  dsimp only at hrest
  have hoperands : Node.operands ⟨.arrayElement, attributes, children⟩ =
      (Node.without .id children).head?.toList := rfl
  unfold ReadsOperands
  rw [hoperands]
  cases hfirst : (Node.without .id children).head? with
  | none =>
    rw [hfirst] at hrest
    cases hrest
  | some first =>
    rw [hfirst] at hrest
    obtain ⟨index, hindex, he⟩ := bind_eq_ok_iff.mp hrest
    cases he
    refine ⟨[], [index], rfl, ?_, Stmt.callEvents_element _ name index⟩
    simp [hindex]

theorem own_of_other {node : Node} (hcall : node.kind ≠ .functionCall) :
    Own ⟨.expression, node⟩ [] := by
  unfold Own
  split
  · next hkind => exact absurd hkind hcall
  · next hposition _ => cases hposition
  · rfl

theorem readsOperands_other {node : Node} {e : Expr} (hcall : node.kind ≠ .functionCall)
    (hid : node.kind ≠ .id) (helement : node.kind ≠ .arrayElement)
    (h : node.untagged = .ok e) : ReadsOperands node e := by
  rw [Node.untagged_eq_of_other hcall hid helement] at h
  unfold ReadsOperands
  rw [Node.operands_eq_of_other hcall hid helement]
  cases hvalue : node.attribute? "value" with
  | some value =>
    rw [hvalue] at h
    cases h
    exact ⟨[], [], own_of_other hcall, rfl, rfl⟩
  | none =>
    rw [hvalue] at h
    obtain ⟨es, hes, hcombine⟩ := bind_eq_ok_iff.mp h
    refine ⟨[], es, own_of_other hcall, hes, ?_⟩
    rw [Stmt.callEvents_singleton, Node.calls_combine (length_of_mapM_eq_ok hes) hcombine]
    rfl

theorem readsOperands_of_untagged {node : Node} {e : Expr} (h : node.untagged = .ok e) :
    ReadsOperands node e := by
  by_cases hcall : node.kind = .functionCall
  · exact readsOperands_call hcall h
  · by_cases hid : node.kind = .id
    · exact readsOperands_id hid h
    · by_cases helement : node.kind = .arrayElement
      · exact readsOperands_element helement h
      · exact readsOperands_other hcall hid helement h

/-- The events of a site that is read as an expression. -/
theorem events_expression {node : Node} {events : List Event}
    (h : Site.events ⟨.expression, node⟩ = .ok events) :
    ∃ own rest, Own ⟨.expression, node⟩ own ∧
      (parts ⟨.expression, node⟩).mapM Site.events = .ok rest ∧ events = own ++ rest.flatten := by
  obtain ⟨e, he, hevents⟩ := map_eq_ok_iff.mp h
  rw [Node.toExpr_eq] at he
  obtain ⟨untagged, huntagged, hretag⟩ := map_eq_ok_iff.mp he
  obtain ⟨own, es, hown, hes, hcalls⟩ := readsOperands_of_untagged huntagged
  refine ⟨own, _, hown, mapM_expressions hes, ?_⟩
  rw [← Stmt.callEvents_eq_flatten, ← hcalls, ← hevents, ← hretag, Stmt.callEvents_singleton,
    Stmt.callEvents_singleton, Node.calls_retag]

/-! ## Statements -/

theorem exists_blocks_of_stmts {nodes : List Node} {ss : List Stmt}
    (h : Node.stmts nodes = .ok ss) :
    ∃ blocks, nodes.mapM Node.toStmts = .ok blocks ∧
      Stmt.eventsEach ss = (blocks.map Stmt.eventsEach).flatten := by
  rw [Node.stmts_eq] at h
  obtain ⟨blocks, hblocks, hss⟩ := map_eq_ok_iff.mp h
  exact ⟨blocks, hblocks, hss ▸ Stmt.eventsEach_flatten blocks⟩

/-- An assignment says what its target is, and its index and value are those operands that count. -/
theorem exists_of_toAssignment {node : Node} {s : Stmt} (h : node.toAssignment = .ok s) :
    ∃ target tag es, node.attribute? "name" = some target ∧
      node.assigned.mapM Node.toExpr = .ok es ∧
      s.events = .assign target tag :: Stmt.callEvents es := by
  obtain ⟨target, htarget, hrest⟩ := bind_eq_ok_iff.mp h
  have hname := Node.require_eq_ok_iff.mp htarget
  unfold Node.assigned
  cases hoperands : Node.without .id node.children with
  | nil =>
    rw [hoperands] at hrest
    cases hrest
  | cons first others =>
    rw [hoperands] at hrest
    cases others with
    | nil =>
      obtain ⟨value, hvalue, hs⟩ := bind_eq_ok_iff.mp hrest
      cases hs
      exact ⟨target, value.tag, [value], hname, by simp [hvalue], rfl⟩
    | cons next rest =>
      obtain ⟨index, hindex, hrest⟩ := bind_eq_ok_iff.mp hrest
      obtain ⟨value, hvalue, hs⟩ := bind_eq_ok_iff.mp hrest
      cases hs
      refine ⟨target, value.tag, [index, value], hname, ?_, rfl⟩
      simpa [hindex] using hvalue

theorem exists_of_toCall {node : Node} {s : Stmt} (h : node.toCall = .ok s) :
    ∃ callee es, node.callee = .ok callee ∧
      (Node.without .id node.children).mapM Node.toExpr = .ok es ∧
      s.events = .call callee :: Stmt.callEvents es := by
  obtain ⟨callee, hcallee, hrest⟩ := bind_eq_ok_iff.mp h
  obtain ⟨arguments, harguments, hs⟩ := bind_eq_ok_iff.mp hrest
  cases hs
  exact ⟨callee, arguments, hcallee, harguments, rfl⟩

/-- A branch is made of its condition and of all blocks that there are. -/
theorem events_of_toBranch {node : Node} {condition : Expr} {blocks : List (List Stmt)} {s : Stmt}
    (h : node.toBranch condition blocks = .ok s) :
    s.events = Stmt.callEvents [condition] ++ (blocks.map Stmt.eventsEach).flatten := by
  unfold Node.toBranch at h
  split at h
  · cases h
    rfl
  · next thenBody =>
    cases h
    simp [Stmt.events]
  · next thenBody elseBody =>
    cases h
    simp [Stmt.events]
  · cases h

/-- The events of a condition and of the statements that it guards. -/
theorem mapM_guarded {first : Node} {guarded : List Node} {condition : Expr}
    {blocks : List (List Stmt)} (hcondition : first.toExpr = .ok condition)
    (hblocks : guarded.mapM Node.toStmts = .ok blocks) :
    (⟨.expression, first⟩ :: statements guarded).mapM events =
      .ok (Stmt.callEvents [condition] :: blocks.map Stmt.eventsEach) := by
  refine mapM_cons_eq_ok_iff.mpr ⟨_, _, ?_, mapM_statements hblocks, rfl⟩
  exact map_eq_ok_iff.mpr ⟨condition, hcondition, rfl⟩

/-- The events of a site that is read as a statement. -/
theorem events_statement {node : Node} {events : List Event}
    (h : Site.events ⟨.statement, node⟩ = .ok events) :
    ∃ own rest, Own ⟨.statement, node⟩ own ∧
      (parts ⟨.statement, node⟩).mapM Site.events = .ok rest ∧ events = own ++ rest.flatten := by
  obtain ⟨ss, hss, hevents⟩ := map_eq_ok_iff.mp h
  rw [← hevents]
  obtain ⟨kind, attributes, children⟩ := node
  cases kind with
  | stmtList =>
    obtain ⟨blocks, hblocks, hall⟩ := exists_blocks_of_stmts hss
    exact ⟨[], _, rfl, mapM_statements hblocks, hall⟩
  | stmt =>
    obtain ⟨blocks, hblocks, hall⟩ := exists_blocks_of_stmts hss
    exact ⟨[], _, rfl, mapM_statements hblocks, hall⟩
  | assignment =>
    obtain ⟨s, hs, heq⟩ := bind_eq_ok_iff.mp hss
    cases heq
    obtain ⟨target, tag, es, hname, hes, hall⟩ := exists_of_toAssignment hs
    refine ⟨[.assign target tag], _, ⟨target, tag, hname, rfl⟩, mapM_expressions hes, ?_⟩
    rw [Stmt.eventsEach_singleton, hall, ← Stmt.callEvents_eq_flatten]
    rfl
  | functionCall =>
    obtain ⟨s, hs, heq⟩ := bind_eq_ok_iff.mp hss
    cases heq
    obtain ⟨callee, es, hcallee, hes, hall⟩ := exists_of_toCall hs
    refine ⟨[.call callee], _, ⟨callee, hcallee, rfl⟩, mapM_expressions hes, ?_⟩
    rw [Stmt.eventsEach_singleton, hall, ← Stmt.callEvents_eq_flatten]
    rfl
  | ifStmt =>
    cases children with
    | nil => cases hss
    | cons first guarded =>
      obtain ⟨condition, hcondition, hrest⟩ := bind_eq_ok_iff.mp hss
      obtain ⟨blocks, hblocks, hrest⟩ := bind_eq_ok_iff.mp hrest
      obtain ⟨s, hs, heq⟩ := bind_eq_ok_iff.mp hrest
      cases heq
      rw [Node.blocks_eq] at hblocks
      refine ⟨[], _, rfl, mapM_guarded hcondition hblocks, ?_⟩
      rw [Stmt.eventsEach_singleton, events_of_toBranch hs]
      rfl
  | whileStmt =>
    cases children with
    | nil => cases hss
    | cons first guarded =>
      obtain ⟨condition, hcondition, hrest⟩ := bind_eq_ok_iff.mp hss
      obtain ⟨body, hbody, heq⟩ := bind_eq_ok_iff.mp hrest
      cases heq
      obtain ⟨blocks, hblocks, hall⟩ := exists_blocks_of_stmts hbody
      refine ⟨[], _, rfl, mapM_guarded hcondition hblocks, ?_⟩
      rw [Stmt.eventsEach_singleton, Stmt.events, hall]
      rfl
  | _ => cases hss

/-- The events of a site are its own and then those of its parts, one part after the other. -/
theorem events_eq {s : Site} {evs : List Event} (h : s.events = .ok evs) :
    ∃ own rest, s.Own own ∧ s.parts.mapM events = .ok rest ∧ evs = own ++ rest.flatten := by
  obtain ⟨position, node⟩ := s
  cases position with
  | statement => exact events_statement h
  | expression => exact events_expression h

/-- What is read of a site can be read by itself, and its events are among those of the site. -/
theorem Reads.exists_events {s t : Site} (hreads : s.Reads t) :
    ∀ {evs : List Event}, s.events = .ok evs → ∃ inner, t.events = .ok inner ∧ inner ⊆ evs := by
  induction hreads with
  | here =>
    intro evs h
    exact ⟨evs, h, List.Subset.refl _⟩
  | @deeper s t u part _ ih =>
    intro evs h
    -- the part is read with the site, and its events are a part of the site's
    obtain ⟨own, rest, -, hrest, heq⟩ := events_eq h
    obtain ⟨middle, hmiddle, hevents⟩ := exists_of_mapM_eq_ok hrest t part
    obtain ⟨inner, hinner, hsubset⟩ := ih hevents
    refine ⟨inner, hinner, fun ev hev => ?_⟩
    rw [heq]
    exact List.mem_append_right _ (List.mem_flatten.mpr ⟨middle, hmiddle, hsubset hev⟩)

theorem Own.call {s : Site} {own : List Event} (h : s.Own own) (hkind : s.node.kind = .functionCall) :
    ∃ callee, s.node.callee = .ok callee ∧ own = [.call callee] := by
  unfold Own at h
  rw [hkind] at h
  exact h

theorem Own.assignment {s : Site} {own : List Event} (h : s.Own own)
    (hposition : s.position = .statement) (hkind : s.node.kind = .assignment) :
    ∃ target tag, s.node.attribute? "name" = some target ∧ own = [.assign target tag] := by
  unfold Own at h
  rw [hposition, hkind] at h
  exact h

theorem Own.eq_nil {s : Site} {own : List Event} (h : s.Own own)
    (hcall : s.node.kind ≠ .functionCall) (hassignment : s.node.kind ≠ .assignment) : own = [] := by
  unfold Own at h
  split at h
  · next hkind => exact absurd hkind hcall
  · next hkind => exact absurd hkind hassignment
  · exact h

end Site

end StaticCheck
