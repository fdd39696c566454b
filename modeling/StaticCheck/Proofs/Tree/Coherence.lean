import StaticCheck.Proofs.Body.Occurrence
import StaticCheck.Proofs.Tree.Layout
import StaticCheck.Proofs.Tree.Site

/-!
# Coherent tags

A tag that is read off a tree is what some text means on the expression below it (`Tag.ofName`). So
not every tag can stand on every expression: the mark of a call stands on a call of its callee only,
and a text that means a tag of its own is never kept as it is (`Expr.Coherent`). No other tag is
excluded: `Expr.coherent_iff`.

Whatever is read off a tree is coherent at every depth (`Expr.coherentWithin_of_toExpr`,
`Stmt.coherent_of_toStmts`). An expression that is made of others starts without a label, and a node
that replaces a tag, be it that of an expression from further down, goes by the callee of that very
expression.
-/

namespace StaticCheck

namespace Tag

/-- The texts that mean a tag of their own on every expression. -/
def closedNames : List String :=
  ["Integer", "String", "Boolean", "Variable"]

/-- A text that means the tag. -/
def label : Tag → String
  | integer => "Integer"
  | string => "String"
  | boolean => "Boolean"
  | var => "Variable"
  | functionCall _ => "FunctionCall"
  | other raw => raw

variable {name raw callee : String} {callee? : Option String}

/-- The mark of a call is read on a call of its callee only. -/
theorem callee?_of_ofName_eq (h : ofName name callee? = functionCall callee) :
    callee? = some callee := by
  unfold ofName at h
  split at h <;> cases h
  rfl

/-- A text is kept only where it means no tag of its own. -/
theorem ofName_eq_other_iff : ofName name callee? = other raw ↔
    raw = name ∧ name ∉ closedNames ∧ (name = "FunctionCall" → callee? = none) := by
  constructor
  · intro h
    unfold ofName at h
    split at h <;> cases h
    next hinteger hstring hboolean hvar hcall =>
      refine ⟨rfl, ?_, fun hname => ?_⟩
      · simp only [closedNames, List.mem_cons, List.not_mem_nil, or_false, not_or]
        exact ⟨hinteger, hstring, hboolean, hvar⟩
      · exact Option.eq_none_iff_forall_ne_some.mpr fun c hc => hcall c hname hc
  · intro h
    obtain ⟨rfl, hclosed, hcall⟩ := h
    unfold ofName
    split
    · exact absurd (by decide) hclosed
    · exact absurd (by decide) hclosed
    · exact absurd (by decide) hclosed
    · exact absurd (by decide) hclosed
    · cases hcall rfl
    · rfl

end Tag

namespace Expr

/-- The tag suits the expression: the mark of a call stands on a call of its callee, and a text is
kept only where it means no tag of its own. -/
structure Coherent (e : Expr) : Prop where
  call : ∀ callee, e.tag = .functionCall callee → e.callee? = some callee
  raw : ∀ text, e.tag = .other text → text ∉ Tag.closedNames
  uncalled : e.tag = .other "FunctionCall" → e.callee? = none

/-- The expression is coherent, and so is every expression below it. -/
def CoherentWithin (e : Expr) : Prop :=
  ∀ d : Expr, d.Within e → d.Coherent

/-- Every coherent tag is the one that its label means. -/
theorem Coherent.ofName_label {e : Expr} (h : e.Coherent) :
    Tag.ofName e.tag.label e.callee? = e.tag := by
  cases htag : e.tag with
  | integer => rfl
  | string => rfl
  | boolean => rfl
  | var => rfl
  | functionCall callee =>
    rw [h.call callee htag]
    rfl
  | other raw =>
    refine Tag.ofName_eq_other_iff.mpr ⟨rfl, h.raw raw htag, fun hraw => h.uncalled ?_⟩
    rw [htag, show raw = "FunctionCall" from hraw]

/-- A tag is coherent if and only if some text means it on the expression. -/
theorem coherent_iff {e : Expr} : e.Coherent ↔ ∃ name, Tag.ofName name e.callee? = e.tag := by
  constructor
  · intro h
    exact ⟨e.tag.label, h.ofName_label⟩
  · intro h
    obtain ⟨name, hname⟩ := h
    constructor
    · intro callee htag
      exact Tag.callee?_of_ofName_eq (hname.trans htag)
    · intro text htag
      obtain ⟨rfl, hclosed, -⟩ := Tag.ofName_eq_other_iff.mp (hname.trans htag)
      exact hclosed
    · intro htag
      obtain ⟨hcall, -, huncalled⟩ := Tag.ofName_eq_other_iff.mp (hname.trans htag)
      exact huncalled hcall.symm

theorem coherent_unlabelled {e : Expr} (h : e.tag = .unlabelled) : e.Coherent :=
  coherent_iff.mpr ⟨"Unknown", h.symm⟩

@[simp]
theorem children_withTag (tag : Tag) (e : Expr) : (e.withTag tag).children = e.children := by
  cases e <;> rfl

theorem coherentWithin_iff {e : Expr} :
    e.CoherentWithin ↔ e.Coherent ∧ ∀ c ∈ e.children, c.CoherentWithin := by
  constructor
  · intro h
    exact ⟨h e .here, fun c hc d hd => h d (.deeper hd hc)⟩
  · intro h d hd
    cases hd with
    | here => exact h.1
    | deeper inside child => exact h.2 _ child d inside

/-- An expression without a label is coherent if what it is made of is. -/
theorem coherentWithin_of_unlabelled {e : Expr} (htag : e.tag = .unlabelled)
    (h : ∀ c ∈ e.children, c.CoherentWithin) : e.CoherentWithin :=
  coherentWithin_iff.mpr ⟨coherent_unlabelled htag, h⟩

/-! ## What is read of expressions -/

theorem coherentWithin_retag (node : Node) {e : Expr} (h : e.CoherentWithin) :
    (node.retag e).CoherentWithin := by
  unfold Node.retag
  cases node.attribute? "argType" with
  | none => exact h
  | some name =>
    refine coherentWithin_iff.mpr ⟨coherent_iff.mpr ⟨name, ?_⟩, ?_⟩
    · simp
    · simpa using (coherentWithin_iff.mp h).2

theorem coherentWithin_chain {steps : List (String × Expr)}
    (hsteps : ∀ step ∈ steps, step.2.CoherentWithin) :
    ∀ {first : Expr}, first.CoherentWithin → (Node.chain first steps).CoherentWithin := by
  unfold Node.chain
  induction steps with
  | nil =>
    intro first hfirst
    exact hfirst
  | cons step steps ih =>
    obtain ⟨hstep, hsteps⟩ := List.forall_mem_cons.mp hsteps
    intro first hfirst
    refine ih hsteps (coherentWithin_of_unlabelled rfl ?_)
    exact List.forall_mem_cons.mpr ⟨hfirst, List.forall_mem_singleton.mpr hstep⟩

theorem coherentWithin_of_combine {node : Node} {es : List Expr} {e : Expr}
    (hes : ∀ d ∈ es, d.CoherentWithin) (h : node.combine es = .ok e) : e.CoherentWithin := by
  cases es with
  | nil => cases h
  | cons first rest =>
    obtain ⟨hfirst, hrest⟩ := List.forall_mem_cons.mp hes
    cases rest with
    | nil =>
      unfold Node.combine at h
      dsimp only at h
      cases hoperator : node.unaryOperator? with
      | none =>
        rw [hoperator] at h
        cases h
        exact hfirst
      | some operator =>
        rw [hoperator] at h
        cases h
        exact coherentWithin_of_unlabelled rfl (List.forall_mem_singleton.mpr hfirst)
    | cons second rest =>
      cases h
      refine coherentWithin_chain (fun step hstep => hrest _ ?_) hfirst
      exact (List.of_mem_zip hstep).2

/-- What is made of children that are read as coherent expressions is coherent. -/
theorem coherentWithin_of_untagged {node : Node} {e : Expr}
    (hchildren : ∀ c ∈ node.children, ∀ d, c.toExpr = .ok d → d.CoherentWithin)
    (h : node.untagged = .ok e) : e.CoherentWithin := by
  have hoperands : ∀ {kind es}, (Node.without kind node.children).mapM Node.toExpr = .ok es →
      ∀ d ∈ es, d.CoherentWithin := by
    intro kind es hes d hd
    obtain ⟨c, hc, hread⟩ := exists_of_mem_of_mapM_eq_ok hes d hd
    exact hchildren c (Node.mem_without_iff.mp hc).1 d hread
  unfold Node.untagged at h
  split at h
  · obtain ⟨callee, -, hrest⟩ := bind_eq_ok_iff.mp h
    obtain ⟨arguments, harguments, he⟩ := bind_eq_ok_iff.mp hrest
    cases he
    exact coherentWithin_of_unlabelled rfl (hoperands harguments)
  · obtain ⟨name, -, he⟩ := bind_eq_ok_iff.mp h
    cases he
    exact coherentWithin_of_unlabelled rfl nofun
  · obtain ⟨name, -, hrest⟩ := bind_eq_ok_iff.mp h
    dsimp only at hrest
    cases hfirst : (Node.without .id node.children).head? with
    | none =>
      rw [hfirst] at hrest
      cases hrest
    | some first =>
      rw [hfirst] at hrest
      obtain ⟨index, hindex, he⟩ := bind_eq_ok_iff.mp hrest
      cases he
      have hmem := (Node.mem_without_iff.mp (List.mem_of_head? hfirst)).1
      refine coherentWithin_of_unlabelled rfl (List.forall_mem_singleton.mpr ?_)
      exact hchildren first hmem index hindex
  · cases hvalue : node.attribute? "value" with
    | some value =>
      rw [hvalue] at h
      cases h
      exact coherentWithin_of_unlabelled rfl nofun
    | none =>
      rw [hvalue] at h
      obtain ⟨es, hes, hcombine⟩ := bind_eq_ok_iff.mp h
      exact coherentWithin_of_combine (hoperands hes) hcombine

/-- Every expression that is read is coherent at every depth. -/
theorem coherentWithin_of_toExpr {node : Node} :
    ∀ {e : Expr}, node.toExpr = .ok e → e.CoherentWithin := by
  induction node using Node.induction_children with
  | step node ih =>
    intro e h
    rw [Node.toExpr_eq] at h
    obtain ⟨untagged, huntagged, rfl⟩ := map_eq_ok_iff.mp h
    have hbelow : untagged.CoherentWithin :=
      coherentWithin_of_untagged (fun c hc d hd => ih c hc hd) huntagged
    exact coherentWithin_retag node hbelow

theorem coherentWithin_of_mapM {nodes : List Node} {es : List Expr}
    (h : nodes.mapM Node.toExpr = .ok es) : ∀ e ∈ es, e.CoherentWithin := by
  intro e he
  obtain ⟨node, -, hread⟩ := exists_of_mem_of_mapM_eq_ok h e he
  exact coherentWithin_of_toExpr hread

end Expr

/-! ## What is read of statements -/

namespace Stmt

/-- All expressions in the statement are coherent. -/
def Coherent (s : Stmt) : Prop :=
  ∀ t : Stmt, t.Within s → ∀ e ∈ t.exprs, e.CoherentWithin

theorem coherent_iff {s : Stmt} :
    s.Coherent ↔ (∀ e ∈ s.exprs, e.CoherentWithin) ∧ ∀ t ∈ s.inner, t.Coherent := by
  constructor
  · intro h
    exact ⟨h s .here, fun t ht u hu => h u (.deeper hu ht)⟩
  · intro h t ht
    cases ht with
    | here => exact h.1
    | deeper inside child => exact h.2 _ child t inside

/-- The expressions of a body are coherent if and only if its statements are. -/
theorem forall_coherent_iff {body : List Stmt} :
    (∀ e : Expr, e.OccursIn body → e.Coherent) ↔ ∀ s ∈ body, s.Coherent := by
  constructor
  · intro h s hs t ht e he d hd
    exact h d ⟨t, ⟨s, hs, ht⟩, e, he, hd⟩
  · intro h d hd
    obtain ⟨t, ⟨s, hs, ht⟩, e, he, hd⟩ := hd
    exact h s hs t ht e he d hd

theorem coherent_of_toAssignment {node : Node} {s : Stmt} (h : node.toAssignment = .ok s) :
    s.Coherent := by
  obtain ⟨target, -, hrest⟩ := bind_eq_ok_iff.mp h
  refine coherent_iff.mpr ?_
  split at hrest
  · cases hrest
  · obtain ⟨value, hvalue, hs⟩ := bind_eq_ok_iff.mp hrest
    cases hs
    exact ⟨List.forall_mem_singleton.mpr (Expr.coherentWithin_of_toExpr hvalue), nofun⟩
  · obtain ⟨index, hindex, hrest⟩ := bind_eq_ok_iff.mp hrest
    obtain ⟨value, hvalue, hs⟩ := bind_eq_ok_iff.mp hrest
    cases hs
    refine ⟨List.forall_mem_cons.mpr ⟨Expr.coherentWithin_of_toExpr hindex, ?_⟩, nofun⟩
    exact List.forall_mem_singleton.mpr (Expr.coherentWithin_of_toExpr hvalue)

theorem coherent_of_toCall {node : Node} {s : Stmt} (h : node.toCall = .ok s) : s.Coherent := by
  obtain ⟨callee, -, hrest⟩ := bind_eq_ok_iff.mp h
  obtain ⟨arguments, harguments, hs⟩ := bind_eq_ok_iff.mp hrest
  cases hs
  exact coherent_iff.mpr ⟨Expr.coherentWithin_of_mapM harguments, nofun⟩

theorem coherent_of_toBranch {node : Node} {condition : Expr} {blocks : List (List Stmt)} {s : Stmt}
    (hcondition : condition.CoherentWithin) (hblocks : ∀ block ∈ blocks, ∀ t ∈ block, t.Coherent)
    (h : node.toBranch condition blocks = .ok s) : s.Coherent := by
  refine coherent_iff.mpr ?_
  unfold Node.toBranch at h
  split at h
  · cases h
    exact ⟨List.forall_mem_singleton.mpr hcondition, nofun⟩
  · next thenBody =>
    cases h
    refine ⟨List.forall_mem_singleton.mpr hcondition, List.forall_mem_append.mpr ⟨?_, nofun⟩⟩
    exact hblocks thenBody (List.mem_cons_self ..)
  · next thenBody elseBody =>
    cases h
    obtain ⟨hthen, helse⟩ := List.forall_mem_cons.mp hblocks
    refine ⟨List.forall_mem_singleton.mpr hcondition, List.forall_mem_append.mpr ⟨hthen, ?_⟩⟩
    exact List.forall_mem_singleton.mp helse
  · cases h

theorem coherent_of_stmts {nodes : List Node} {ss : List Stmt}
    (hnodes : ∀ n ∈ nodes, ∀ {block}, n.toStmts = .ok block → ∀ s ∈ block, s.Coherent)
    (h : Node.stmts nodes = .ok ss) : ∀ s ∈ ss, s.Coherent := by
  intro s hs
  rw [Node.stmts_eq] at h
  obtain ⟨blocks, hblocks, rfl⟩ := map_eq_ok_iff.mp h
  obtain ⟨block, hblock, hmem⟩ := List.mem_flatten.mp hs
  obtain ⟨node, hnode, hread⟩ := exists_of_mem_of_mapM_eq_ok hblocks block hblock
  exact hnodes node hnode hread s hmem

/-- Every statement that is read is coherent. -/
theorem coherent_of_toStmts {node : Node} :
    ∀ {ss : List Stmt}, node.toStmts = .ok ss → ∀ s ∈ ss, s.Coherent := by
  induction node using Node.induction_children with
  | step node ih =>
    intro ss h
    obtain ⟨kind, attributes, children⟩ := node
    cases kind with
    | stmtList => exact coherent_of_stmts ih h
    | stmt => exact coherent_of_stmts ih h
    | assignment =>
      obtain ⟨s, hs, heq⟩ := bind_eq_ok_iff.mp h
      cases heq
      exact List.forall_mem_singleton.mpr (coherent_of_toAssignment hs)
    | functionCall =>
      obtain ⟨s, hs, heq⟩ := bind_eq_ok_iff.mp h
      cases heq
      exact List.forall_mem_singleton.mpr (coherent_of_toCall hs)
    | ifStmt =>
      cases children with
      | nil => cases h
      | cons condition guarded =>
        obtain ⟨e, he, hrest⟩ := bind_eq_ok_iff.mp h
        obtain ⟨bodies, hbodies, hrest⟩ := bind_eq_ok_iff.mp hrest
        obtain ⟨s, hs, heq⟩ := bind_eq_ok_iff.mp hrest
        cases heq
        rw [Node.blocks_eq] at hbodies
        have hblocks : ∀ block ∈ bodies, ∀ t ∈ block, t.Coherent := by
          intro block hblock
          obtain ⟨n, hn, hread⟩ := exists_of_mem_of_mapM_eq_ok hbodies block hblock
          exact ih n (List.mem_cons_of_mem _ hn) hread
        exact List.forall_mem_singleton.mpr
          (coherent_of_toBranch (Expr.coherentWithin_of_toExpr he) hblocks hs)
    | whileStmt =>
      cases children with
      | nil => cases h
      | cons condition guarded =>
        obtain ⟨e, he, hrest⟩ := bind_eq_ok_iff.mp h
        obtain ⟨body, hbody, heq⟩ := bind_eq_ok_iff.mp hrest
        cases heq
        refine List.forall_mem_singleton.mpr (coherent_iff.mpr ⟨?_, ?_⟩)
        · exact List.forall_mem_singleton.mpr (Expr.coherentWithin_of_toExpr he)
        · exact coherent_of_stmts (fun n hn => ih n (List.mem_cons_of_mem _ hn)) hbody
    | _ => cases h

end Stmt

end StaticCheck
