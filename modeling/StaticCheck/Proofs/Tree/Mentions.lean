import StaticCheck.Proofs.Tree.Coverage
import StaticCheck.Proofs.Tree.Grammar

/-!
# What a body mentions

The calls of a body name their callees and its assignments their targets (`Mention`). They can be
listed twice: off the tree, node by node and each node before those below it (`Node.mentions`), and
off the statements that are made of it, in the order in which these are checked (`Event.mention`).

The tree has more nodes than are read, and groups them in another way. `mentions_eq_of_orderly` says
that the two lists are the same, for bodies without operands that do not count and without calls or
assignments in places that are not read.

A site adds to the list what it mentions by itself and what its parts mention. The other children of
it are skipped, so all that is needed of a site is that those mention nothing (`Site.Plain`);
`Site.mentions_of_events` puts the sites together along the tree.
-/

namespace StaticCheck

/-- What is named where a routine is called or a variable is assigned to. -/
inductive Mention where
  | call (callee : String)
  | assign (target : String)
  deriving DecidableEq

/-- What is mentioned where the checker looks. -/
def Event.mention : Event → Mention
  | .assign target _ => .assign target
  | .call callee => .call callee

namespace Node

mutual

/-- The nodes of a tree, each before those below it. -/
def preorder : Node → List Node
  | ⟨kind, attributes, children⟩ => ⟨kind, attributes, children⟩ :: preorderEach children

/-- The nodes of several trees, one tree after the other. -/
def preorderEach : List Node → List Node
  | [] => []
  | node :: nodes => node.preorder ++ preorderEach nodes

end

/-- The nodes below a node. -/
def descendants (node : Node) : List Node :=
  preorderEach node.children

/-- What a node mentions by itself: a call its callee, and an assignment its target. -/
def mention? (node : Node) : Option Mention :=
  match node.kind with
  | .functionCall => node.callee.toOption.map .call
  | .assignment => (node.attribute? "name").map .assign
  | _ => none

/-- What is mentioned anywhere in trees, in the order of the text. -/
def mentions (nodes : List Node) : List Mention :=
  (preorderEach nodes).filterMap mention?

/-! ## The order of the nodes -/

theorem preorder_eq (node : Node) : node.preorder = node :: node.descendants := by
  obtain ⟨kind, attributes, children⟩ := node
  rw [preorder]
  rfl

theorem preorderEach_eq (nodes : List Node) : preorderEach nodes = nodes.flatMap preorder := by
  induction nodes with
  | nil => rfl
  | cons node nodes ih => rw [preorderEach, ih, List.flatMap_cons]

theorem self_mem_preorder (node : Node) : node ∈ node.preorder := by
  rw [preorder_eq]
  exact List.mem_cons_self ..

theorem mem_preorder_of_mem_descendants {node d : Node} (h : d ∈ node.descendants) :
    d ∈ node.preorder := by
  rw [preorder_eq]
  exact List.mem_cons_of_mem _ h

theorem mem_descendants_of_child {node c d : Node} (hc : c ∈ node.children) (hd : d ∈ c.preorder) :
    d ∈ node.descendants := by
  unfold descendants
  rw [preorderEach_eq]
  exact List.mem_flatMap.mpr ⟨c, hc, hd⟩

/-- What is in a tree that is in another one is in that one as well. -/
theorem mem_preorder_trans {inner d : Node} (hd : d ∈ inner.preorder) :
    ∀ node : Node, inner ∈ node.preorder → d ∈ node.preorder := by
  refine induction_children fun node ih hinner => ?_
  rw [preorder_eq] at hinner
  rcases List.mem_cons.mp hinner with rfl | hbelow
  · exact hd
  · unfold descendants at hbelow
    rw [preorderEach_eq] at hbelow
    obtain ⟨c, hc, hin⟩ := List.mem_flatMap.mp hbelow
    exact mem_preorder_of_mem_descendants (mem_descendants_of_child hc (ih c hc hin))

theorem mem_preorderEach_trans {nodes : List Node} {inner d : Node}
    (hinner : inner ∈ preorderEach nodes) (hd : d ∈ inner.preorder) : d ∈ preorderEach nodes := by
  rw [preorderEach_eq] at hinner ⊢
  obtain ⟨node, hnode, hin⟩ := List.mem_flatMap.mp hinner
  exact List.mem_flatMap.mpr ⟨node, hnode, mem_preorder_trans hd node hin⟩

/-! ## Mentions of several trees -/

theorem mentions_cons (node : Node) (nodes : List Node) :
    mentions (node :: nodes) = mentions [node] ++ mentions nodes := by
  unfold mentions
  rw [preorderEach_eq, preorderEach_eq, preorderEach_eq, List.flatMap_cons, List.flatMap_singleton,
    List.filterMap_append]

/-- A tree mentions what its root does and then what its children do. -/
theorem mentions_singleton (node : Node) :
    mentions [node] = node.mention?.toList ++ mentions node.children := by
  have hnodes : preorderEach [node] = node :: preorderEach node.children := by
    rw [preorderEach_eq, List.flatMap_singleton, preorder_eq]
    rfl
  unfold mentions
  rw [hnodes, List.filterMap_cons]
  cases node.mention? <;> rfl

theorem mention?_eq_none {node : Node} (hcall : node.kind ≠ .functionCall)
    (hassignment : node.kind ≠ .assignment) : node.mention? = none := by
  unfold mention?
  split
  · next hkind => exact absurd hkind hcall
  · next hkind => exact absurd hkind hassignment
  · rfl

/-- Where there is no call and no assignment, nothing is mentioned. -/
theorem mentions_eq_nil {nodes : List Node}
    (hcalls : ∀ d ∈ preorderEach nodes, d.kind ≠ .functionCall)
    (hassignments : ∀ d ∈ preorderEach nodes, d.kind ≠ .assignment) : mentions nodes = [] := by
  unfold mentions
  exact List.filterMap_eq_nil_iff.mpr fun d hd => mention?_eq_none (hcalls d hd) (hassignments d hd)

/-- Nodes of a kind can be skipped if nothing is mentioned by them or below them. -/
theorem mentions_without {kind : NodeKind} (hcall : kind ≠ .functionCall)
    (hassignment : kind ≠ .assignment) {nodes : List Node}
    (h : ∀ n ∈ nodes, n.kind = kind → mentions n.children = []) :
    mentions (without kind nodes) = mentions nodes := by
  induction nodes with
  | nil => rfl
  | cons node nodes ih =>
    have hrest := ih fun n hn => h n (List.mem_cons_of_mem _ hn)
    unfold without at hrest ⊢
    rw [mentions_cons node nodes, List.filter_cons]
    by_cases hkind : node.kind = kind
    · have hnode : mentions [node] = [] := by
        rw [mentions_singleton, h node (List.mem_cons_self ..) hkind,
          mention?_eq_none (hkind ▸ hcall) (hkind ▸ hassignment)]
        rfl
      rw [is_iff.mpr hkind, hnode]
      exact hrest
    · rw [is_eq_false_iff.mpr hkind, ← hrest]
      exact mentions_cons ..

/-! ## Children that are read -/

theorem without_subset (kind : NodeKind) (nodes : List Node) : without kind nodes ⊆ nodes :=
  List.filter_sublist.subset

theorem assigned_subset (n : Node) : n.assigned ⊆ n.children := by
  have hsubset := without_subset .id n.children
  unfold assigned
  cases hoperands : without .id n.children with
  | nil => exact List.nil_subset _
  | cons first others =>
    rw [hoperands] at hsubset
    obtain ⟨hfirst, hothers⟩ := List.cons_subset.mp hsubset
    cases others with
    | nil => exact hsubset
    | cons next rest =>
      refine List.cons_subset.mpr ⟨hfirst, List.cons_subset.mpr ⟨hothers ?_, List.nil_subset _⟩⟩
      exact List.getLastD_mem_cons

theorem operands_subset (n : Node) : n.operands ⊆ n.children := by
  unfold operands
  split
  · exact without_subset ..
  · exact List.nil_subset _
  · intro d hd
    exact without_subset .id _ (List.mem_of_head? (Option.mem_toList.mp hd))
  · split
    · exact List.nil_subset _
    · exact without_subset ..

end Node

namespace Site

open Node

/-! ## Sites that skip nothing that is mentioned -/

/-- A site is plain if the children that are not read mention nothing, and if no assignment stands
there as an expression. -/
structure Plain (s : Site) : Prop where
  parts : mentions (s.parts.map node) = mentions s.node.children
  target : s.position = .expression → s.node.kind ≠ .assignment

@[simp]
theorem node_statements (nodes : List Node) : (statements nodes).map node = nodes := by
  simp [statements, Function.comp_def]

@[simp]
theorem node_expressions (nodes : List Node) : (expressions nodes).map node = nodes := by
  simp [expressions, Function.comp_def]

theorem node_parts_subset (s : Site) : s.parts.map node ⊆ s.node.children := by
  obtain ⟨position, n⟩ := s
  cases position with
  | expression => simpa [parts] using operands_subset n
  | statement =>
    -- the kinds of statements in the order in which their parts are defined
    unfold parts
    dsimp only
    split
    · simp
    · simp
    · simpa using assigned_subset n
    · simpa using without_subset .id n.children
    · next hchildren => simp [hchildren]
    · next hchildren => simp [hchildren]
    · simp

/-- What is read of a site stands at its node or below it. -/
theorem Reads.mem_preorder {s u : Site} (h : s.Reads u) : u.node ∈ s.node.preorder := by
  induction h with
  | here => exact self_mem_preorder _
  | deeper part _ ih =>
    have hchild := node_parts_subset _ (List.mem_map_of_mem part)
    exact mem_preorder_of_mem_descendants (mem_descendants_of_child hchild ih)

/-- The event that a site has by itself mentions what its node does. -/
theorem Own.map_mention {s : Site} {own : List Event} (h : s.Own own)
    (htarget : s.position = .expression → s.node.kind ≠ .assignment) :
    own.map Event.mention = s.node.mention?.toList := by
  by_cases hcall : s.node.kind = .functionCall
  · obtain ⟨callee, hcallee, hown⟩ := h.call hcall
    simp [mention?, hcall, hcallee, hown, Event.mention, Except.toOption]
  · by_cases hassignment : s.node.kind = .assignment
    · have hposition : s.position = .statement := by
        cases hp : s.position with
        | statement => rfl
        | expression => exact absurd hassignment (htarget hp)
      obtain ⟨target, tag, hname, hown⟩ := h.assignment hposition hassignment
      simp [mention?, hassignment, hname, hown, Event.mention]
    · simp [mention?_eq_none hcall hassignment, h.eq_nil hcall hassignment]

/-- Sites that each mention what there is in their events do so together. -/
theorem mentions_of_mapM {sites : List Site}
    (each : ∀ t ∈ sites, ∀ evs, t.events = .ok evs → mentions [t.node] = evs.map Event.mention) :
    ∀ {answers : List (List Event)}, sites.mapM events = .ok answers →
      mentions (sites.map node) = answers.flatten.map Event.mention := by
  induction sites with
  | nil =>
    intro answers h
    cases h
    rfl
  | cons t sites ih =>
    intro answers h
    obtain ⟨evs, rest, hevs, hrest, rfl⟩ := mapM_cons_eq_ok_iff.mp h
    have hsites := ih (fun u hu => each u (List.mem_cons_of_mem _ hu)) hrest
    have ht := each t (List.mem_cons_self ..) evs hevs
    rw [List.map_cons, mentions_cons, ht, hsites, List.flatten_cons, List.map_append]

/-- If all that is read of a node is plain, then the node mentions what there is in its events. -/
theorem mentions_of_events : ∀ (n : Node) {position : Position} {evs : List Event},
    (∀ u, Reads ⟨position, n⟩ u → u.Plain) → Site.events ⟨position, n⟩ = .ok evs →
      mentions [n] = evs.map Event.mention := by
  refine induction_children fun n ih => ?_
  intro position evs hplain hevents
  obtain ⟨own, rest, hown, hparts, rfl⟩ := events_eq hevents
  have hhere : Plain ⟨position, n⟩ := hplain _ .here
  -- the parts stand at children, where the induction on the tree says what they mention
  have hinner : mentions ((parts ⟨position, n⟩).map node) = rest.flatten.map Event.mention := by
    refine mentions_of_mapM (fun t ht inner hinner => ?_) hparts
    have hchild : t.node ∈ n.children := node_parts_subset _ (List.mem_map_of_mem ht)
    exact ih t.node hchild (fun u hu => hplain u (.deeper ht hu)) hinner
  rw [mentions_singleton, ← hhere.parts, hinner, List.map_append, hown.map_mention hhere.target]

/-- What is read of a site is among any sites that the parts of each are among. -/
theorem Reads.mem_of_closed {sites : List Site} (hclosed : ∀ s ∈ sites, ∀ t ∈ s.parts, t ∈ sites)
    {s u : Site} (h : s.Reads u) : s ∈ sites → u ∈ sites := by
  induction h with
  | here => exact id
  | deeper part _ ih => exact fun hs => ih (hclosed _ hs _ part)

end Site

namespace Node

/-! ## Orderly bodies -/

/-- The site is read where the nodes are read as statements. -/
def ReadIn (nodes : List Node) (s : Site) : Prop :=
  ∃ n ∈ nodes, Site.Reads ⟨.statement, n⟩ s

/-- A body is orderly if an assignment has at most two operands and an array element exactly one, if
no call stands below a node that is not read any further, and if no assignment stands in or below an
expression. -/
structure Orderly (nodes : List Node) : Prop where
  assignment : ∀ n, ReadIn nodes ⟨.statement, n⟩ → n.kind = .assignment →
    (without .id n.children).length ≤ 2
  element : ∀ n ∈ preorderEach nodes, n.kind = .arrayElement →
    (without .id n.children).length = 1
  identifier : ∀ n ∈ preorderEach nodes, n.kind = .id →
    ∀ d ∈ n.descendants, d.kind ≠ .functionCall
  operator : ∀ n ∈ preorderEach nodes, n.kind = .comparisonOperator →
    ∀ d ∈ n.descendants, d.kind ≠ .functionCall
  value : ∀ n, ReadIn nodes ⟨.expression, n⟩ → n.Composite → n.Has "value" →
    ∀ d ∈ n.descendants, d.kind ≠ .functionCall
  expression : ∀ n, ReadIn nodes ⟨.expression, n⟩ → ∀ d ∈ n.preorder, d.kind ≠ .assignment

/-- No assignment stands below an identifier. -/
def BareIdentifiers (nodes : List Node) : Prop :=
  ∀ n ∈ preorderEach nodes, n.kind = .id → ∀ d ∈ n.descendants, d.kind ≠ .assignment

variable {nodes : List Node} {n c : Node}

theorem ReadIn.mem_preorderEach {s : Site} (h : ReadIn nodes s) : s.node ∈ preorderEach nodes := by
  obtain ⟨n, hn, hreads⟩ := h
  rw [preorderEach_eq]
  exact List.mem_flatMap.mpr ⟨n, hn, hreads.mem_preorder⟩

theorem mem_preorderEach_of_child (hn : n ∈ preorderEach nodes) (hc : c ∈ n.children) :
    c ∈ preorderEach nodes :=
  mem_preorderEach_trans hn
    (mem_preorder_of_mem_descendants (mem_descendants_of_child hc c.self_mem_preorder))

/-- Two operands or fewer all count. -/
theorem assigned_eq_without (h : (without .id n.children).length ≤ 2) :
    n.assigned = without .id n.children := by
  unfold assigned
  match hoperands : without .id n.children, h with
  | [], _ => rfl
  | [_], _ => rfl
  | [_, _], _ => rfl

namespace Orderly

variable (horderly : Orderly nodes) (hbare : BareIdentifiers nodes)

include horderly hbare

theorem mentions_identifier (hn : n ∈ preorderEach nodes) (hid : n.kind = .id) :
    mentions n.children = [] :=
  mentions_eq_nil (horderly.identifier n hn hid) (hbare n hn hid)

theorem mentions_without_id (hn : n ∈ preorderEach nodes) :
    mentions (without .id n.children) = mentions n.children :=
  mentions_without (by decide) (by decide) fun _ hc hid =>
    horderly.mentions_identifier hbare (mem_preorderEach_of_child hn hc) hid

/-- The operands of an expression mention what the children do. -/
theorem mentions_operands (hread : ReadIn nodes ⟨.expression, n⟩) :
    mentions n.operands = mentions n.children := by
  have hn : n ∈ preorderEach nodes := hread.mem_preorderEach
  by_cases hcall : n.kind = .functionCall
  · unfold operands
    rw [hcall]
    exact horderly.mentions_without_id hbare hn
  by_cases hid : n.kind = .id
  · unfold operands
    rw [hid, horderly.mentions_identifier hbare hn hid]
    rfl
  by_cases helement : n.kind = .arrayElement
  · obtain ⟨index, hindex⟩ := List.length_eq_one_iff.mp (horderly.element n hn helement)
    unfold operands
    rw [helement, ← horderly.mentions_without_id hbare hn, hindex]
    rfl
  have hassignments : ∀ d ∈ n.descendants, d.kind ≠ .assignment := fun d hd =>
    horderly.expression n hread d (mem_preorder_of_mem_descendants hd)
  rw [operands_eq_of_other hcall hid helement]
  cases hvalue : n.attribute? "value" with
  | some value =>
    have hcalls := horderly.value n hread ⟨hcall, hid, helement⟩ ⟨value, hvalue⟩
    exact (mentions_eq_nil hcalls hassignments).symm
  | none =>
    refine mentions_without (by decide) (by decide) fun c hc hoperator => ?_
    refine mentions_eq_nil (horderly.operator c (mem_preorderEach_of_child hn hc) hoperator) ?_
    intro d hd
    exact hassignments d (mem_descendants_of_child hc (mem_preorder_of_mem_descendants hd))

/-- The parts of a statement mention what the children do. -/
theorem mentions_parts (hread : ReadIn nodes ⟨.statement, n⟩) {ss : List Stmt}
    (hss : n.toStmts = .ok ss) :
    mentions ((Site.parts ⟨.statement, n⟩).map Site.node) = mentions n.children := by
  have hn : n ∈ preorderEach nodes := hread.mem_preorderEach
  have hoperands := horderly.mentions_without_id hbare hn
  have hlength := horderly.assignment n hread
  obtain ⟨kind, attributes, children⟩ := n
  cases kind with
  | stmtList => simp [Site.parts]
  | stmt => simp [Site.parts]
  | assignment =>
    rw [← hoperands, ← assigned_eq_without (hlength rfl)]
    simp [Site.parts]
  | functionCall =>
    rw [← hoperands]
    simp [Site.parts]
  | ifStmt =>
    cases children with
    | nil => cases hss
    | cons condition guarded => simp [Site.parts]
  | whileStmt =>
    cases children with
    | nil => cases hss
    | cons condition guarded => simp [Site.parts]
  | _ => cases hss

theorem plain {s : Site} (hread : ReadIn nodes s) {evs : List Event} (hevents : s.events = .ok evs) :
    s.Plain := by
  obtain ⟨position, n⟩ := s
  cases position with
  | statement =>
    obtain ⟨ss, hss, -⟩ := map_eq_ok_iff.mp hevents
    exact ⟨horderly.mentions_parts hbare hread hss, nofun⟩
  | expression =>
    refine ⟨?_, fun _ => horderly.expression n hread n n.self_mem_preorder⟩
    simpa [Site.parts] using horderly.mentions_operands hbare hread

end Orderly

theorem ReadIn.mem_of_closed {sites : List Site}
    (hclosed : ∀ s ∈ sites, ∀ t ∈ s.parts, t ∈ sites)
    (hroots : ∀ n ∈ nodes, ⟨.statement, n⟩ ∈ sites) {s : Site} (h : ReadIn nodes s) : s ∈ sites := by
  obtain ⟨n, hn, hreads⟩ := h
  exact hreads.mem_of_closed hclosed (hroots n hn)

/-- What holds of all that is read can be seen at any sites that the parts of each are among. -/
theorem Orderly.of_closed (sites : List Site) (hclosed : ∀ s ∈ sites, ∀ t ∈ s.parts, t ∈ sites)
    (hroots : ∀ n ∈ nodes, ⟨.statement, n⟩ ∈ sites)
    (hassignment : ∀ s ∈ sites, s.position = .statement → s.node.kind = .assignment →
      (without .id s.node.children).length ≤ 2)
    (hvalue : ∀ s ∈ sites, s.position = .expression → (s.node.attribute? "value").isSome →
      ∀ d ∈ s.node.descendants, d.kind ≠ .functionCall)
    (hexpression : ∀ s ∈ sites, s.position = .expression →
      ∀ d ∈ s.node.preorder, d.kind ≠ .assignment)
    (helement : ∀ n ∈ preorderEach nodes, n.kind = .arrayElement →
      (without .id n.children).length = 1)
    (hskipped : ∀ n ∈ preorderEach nodes, n.kind = .id ∨ n.kind = .comparisonOperator →
      ∀ d ∈ n.descendants, d.kind ≠ .functionCall) : Orderly nodes where
  assignment _ hread := hassignment _ (hread.mem_of_closed hclosed hroots) rfl
  element := helement
  identifier n hn hkind := hskipped n hn (.inl hkind)
  operator n hn hkind := hskipped n hn (.inr hkind)
  value _ hread _ hown :=
    hvalue _ (hread.mem_of_closed hclosed hroots) rfl (Option.isSome_iff_exists.mpr hown)
  expression _ hread := hexpression _ (hread.mem_of_closed hclosed hroots) rfl

/-- The callees and targets in the text of an orderly body are those that the checker comes to, in
this order and as many times. -/
theorem mentions_eq_of_orderly (nodes : List Node) (ss : List Stmt) (hstmts : stmts nodes = .ok ss)
    (horderly : Orderly nodes) (hbare : BareIdentifiers nodes) :
    mentions nodes = (Stmt.eventsEach ss).map Event.mention := by
  obtain ⟨blocks, hblocks, hall⟩ := Site.exists_blocks_of_stmts hstmts
  have hsites : mentions ((Site.statements nodes).map Site.node) =
      (blocks.map Stmt.eventsEach).flatten.map Event.mention := by
    refine Site.mentions_of_mapM (fun t ht evs hevs => ?_) (Site.mapM_statements hblocks)
    obtain ⟨n, hn, rfl⟩ := List.mem_map.mp ht
    refine Site.mentions_of_events n (fun u hu => ?_) hevs
    obtain ⟨inner, hinner, -⟩ := hu.exists_events hevs
    exact horderly.plain hbare ⟨n, hn, hu⟩ hinner
  rw [hall, ← hsites, Site.node_statements]

/-- A loop that waits for an answer and puts it into an array, whose name is also its label. -/
def waitingLoop : Node :=
  (ofKind .whileStmt).withChildren
    [callOf "ready", assignmentTo "x" [idOf "x", callOf "size", one]]

theorem orderly_waitingLoop : Orderly [waitingLoop] := by
  refine Orderly.of_closed [⟨.statement, waitingLoop⟩, ⟨.expression, callOf "ready"⟩,
    ⟨.statement, assignmentTo "x" [idOf "x", callOf "size", one]⟩,
    ⟨.expression, callOf "size"⟩, ⟨.expression, one⟩] ?_ ?_ ?_ ?_ ?_ ?_ ?_
  all_goals decide

/-- The loop lowers to one that mentions the condition's callee, the target and the index's callee. -/
theorem mentions_waitingLoop :
    ∃ ss, stmts [waitingLoop] = .ok ss ∧ Orderly [waitingLoop] ∧ BareIdentifiers [waitingLoop] ∧
      mentions [waitingLoop] = [.call "ready", .assign "x", .call "size"] ∧
      mentions [waitingLoop] = (Stmt.eventsEach ss).map Event.mention := by
  have hbare : BareIdentifiers [waitingLoop] := by
    unfold BareIdentifiers
    decide
  refine ⟨_, rfl, orderly_waitingLoop, hbare, rfl, ?_⟩
  exact mentions_eq_of_orderly [waitingLoop] _ rfl orderly_waitingLoop hbare

/-- A call whose identifier has an assignment below it. -/
def labelledCall : Node :=
  (callOf "echo").withChildren [(idOf "echo").withChildren [assignmentTo "nope" [one]]]

/-- The identifier of a call is a label and is not read, so that the assignment below it is mentioned
in the text alone. -/
theorem mentions_labelledCall :
    stmts [labelledCall] = .ok [.call "echo" []] ∧ Orderly [labelledCall] ∧
      mentions [labelledCall] = [.call "echo", .assign "nope"] ∧
      mentions [labelledCall] ≠ (Stmt.eventsEach [.call "echo" []]).map Event.mention := by
  refine ⟨rfl, ?_, rfl, by decide⟩
  refine Orderly.of_closed [⟨.statement, labelledCall⟩] ?_ ?_ ?_ ?_ ?_ ?_ ?_
  all_goals decide

end Node

end StaticCheck
