import StaticCheck.Proofs.Analysis.Modes
import StaticCheck.Proofs.Analysis.WellFormed
import StaticCheck.Proofs.Tree.Site
import StaticCheck.Tree.Check

/-!
# What an accepted tree is known to contain

If a tree is accepted, then each call that is read in one of its bodies, at any depth, has a callee
with a signature, and each assignment that is read as a statement has a target that is a global or
a local name of its routine: `check_sound`.

The proof goes along the levels of a tree. The children of the root stand for the items of its
program (`exists_item`), the statements of such a child for the body of its item, and what is read in
these for events of the body (`Site.Reads.exists_events`). The program is well formed, so that these
events fit.

Not every node below a statement is read. `unread_nodes_escape` shows trees that are accepted with a
call of an unknown routine or an assignment to an unknown variable in a place that is not read.
-/

namespace StaticCheck

namespace Item

/-- The name of a routine, whose local names are known in its body. -/
def owner? (item : Item) : Option String :=
  item.routine?.map (·.name)

end Item

namespace Node

/-- The children of a main procedure or routine that make its body. -/
def statements (node : Node) : List Node :=
  match node.kind with
  | .functionDef => (RoutineParts.ofChildren .function node.children).statements
  | .procedureDef => (RoutineParts.ofChildren .procedure node.children).statements
  | _ => node.children.dropWhile (·.is .declaration)

/-- The name of a routine. -/
def owner? (node : Node) : Option String :=
  match node.kind with
  | .functionDef => node.attribute? (nameKey .function)
  | .procedureDef => node.attribute? (nameKey .procedure)
  | _ => none

/-- The node stands for the item, as far as their bodies go. -/
structure StandsFor (node : Node) (item : Item) : Prop where
  body : stmts node.statements = .ok item.body
  owner : item.owner? = node.owner?

theorem standsFor_main {node : Node} {main : MainProc} (hkind : node.kind = .mainProc)
    (h : node.toMain = .ok main) : node.StandsFor (.main main) := by
  obtain ⟨declarations, -, hrest⟩ := bind_eq_ok_iff.mp h
  obtain ⟨body, hbody, hmain⟩ := bind_eq_ok_iff.mp hrest
  cases hmain
  constructor
  · simpa [statements, hkind, Item.body] using hbody
  · simp [owner?, Item.owner?, Item.routine?, hkind]

theorem name_of_toHeader {kind : RoutineKind} {node : Node} {parts : RoutineParts} {h : Header}
    (hheader : node.toHeader kind parts = .ok h) : node.attribute? (nameKey kind) = some h.name := by
  obtain ⟨name, hname, hrest⟩ := bind_eq_ok_iff.mp hheader
  obtain ⟨parameters, -, hrest⟩ := bind_eq_ok_iff.mp hrest
  obtain ⟨returnTy, -, hrest⟩ := bind_eq_ok_iff.mp hrest
  obtain ⟨locals, -, hh⟩ := bind_eq_ok_iff.mp hrest
  cases hh
  exact require_eq_ok_iff.mp hname

theorem exists_of_toRoutine {kind : RoutineKind} {node : Node} {routine : Routine}
    (h : (node.toRoutine kind).result = .ok routine) :
    stmts (RoutineParts.ofChildren kind node.children).statements = .ok routine.body ∧
      node.attribute? (nameKey kind) = some routine.name := by
  obtain ⟨header, hheader, hrest⟩ := Logged.bind_eq_ok_iff.mp h
  obtain ⟨_, -, hrest⟩ := Logged.bind_eq_ok_iff.mp hrest
  obtain ⟨body, hbody, hroutine⟩ := Logged.bind_eq_ok_iff.mp hrest
  cases hroutine
  exact ⟨hbody, name_of_toHeader hheader⟩

theorem standsFor_routine {kind : RoutineKind} {node : Node} {routine : Routine}
    (hstatements : node.statements = (RoutineParts.ofChildren kind node.children).statements)
    (howner : node.owner? = node.attribute? (nameKey kind))
    (h : (node.toRoutine kind).result = .ok routine) : node.StandsFor (.routine routine) := by
  obtain ⟨hbody, hname⟩ := exists_of_toRoutine h
  exact ⟨hstatements ▸ hbody, (howner.trans hname).symm⟩

/-- The first of several nodes stands for an item, and the others for further ones. -/
theorem exists_of_toItems_cons {mainSeen : Bool} {first : Node} {nodes : List Node}
    {items : List Item} (h : (toItems mainSeen (first :: nodes)).result = .ok items) :
    ∃ mainSeen' item rest, first.StandsFor item ∧ (toItems mainSeen' nodes).result = .ok rest ∧
      items = item :: rest := by
  unfold toItems at h
  split at h
  · next hkind =>
    cases mainSeen with
    | true => cases h
    | false =>
      obtain ⟨main, hmain, hrest⟩ := Logged.bind_eq_ok_iff.mp h
      obtain ⟨rest, hnodes, heq⟩ := Logged.bind_eq_ok_iff.mp hrest
      cases heq
      exact ⟨true, .main main, rest, standsFor_main hkind hmain, hnodes, rfl⟩
  · next hkind =>
    obtain ⟨routine, hroutine, hrest⟩ := Logged.bind_eq_ok_iff.mp h
    obtain ⟨rest, hnodes, heq⟩ := Logged.bind_eq_ok_iff.mp hrest
    cases heq
    have hstands : first.StandsFor (.routine routine) :=
      standsFor_routine (by simp [statements, hkind]) (by simp [owner?, hkind]) hroutine
    exact ⟨mainSeen, .routine routine, rest, hstands, hnodes, rfl⟩
  · next hkind =>
    obtain ⟨routine, hroutine, hrest⟩ := Logged.bind_eq_ok_iff.mp h
    obtain ⟨rest, hnodes, heq⟩ := Logged.bind_eq_ok_iff.mp hrest
    cases heq
    have hstands : first.StandsFor (.routine routine) :=
      standsFor_routine (by simp [statements, hkind]) (by simp [owner?, hkind]) hroutine
    exact ⟨mainSeen, .routine routine, rest, hstands, hnodes, rfl⟩
  · cases h

/-- Each node stands for an item of the program. -/
theorem exists_item {nodes : List Node} :
    ∀ {mainSeen : Bool} {items : List Item}, (toItems mainSeen nodes).result = .ok items →
      ∀ node ∈ nodes, ∃ item ∈ items, node.StandsFor item := by
  induction nodes with
  | nil =>
    intro mainSeen items _ node hnode
    cases hnode
  | cons first nodes ih =>
    intro mainSeen items h node hnode
    obtain ⟨_, item, rest, hfirst, hnodes, heq⟩ := exists_of_toItems_cons h
    rw [heq]
    rcases List.mem_cons.mp hnode with rfl | hnode
    · exact ⟨item, List.mem_cons_self .., hfirst⟩
    · obtain ⟨found, hfound, hstands⟩ := ih hnodes node hnode
      exact ⟨found, List.mem_cons_of_mem _ hfound, hstands⟩

/-- An accepted tree is that of a program whose items its children stand for, and the registry is that
of the program. -/
theorem exists_program {root : Node} {mode : Mode} {r : Registry}
    (h : (root.check mode).result = .ok r) :
    ∃ p : Program, (∀ node ∈ root.children, ∃ item ∈ p.items, node.StandsFor item) ∧
      (p.analyze mode).result = .ok r := by
  obtain ⟨p, hp, hr⟩ := Logged.bind_eq_ok_iff.mp h
  refine ⟨p, ?_, mapError_eq_ok_iff.mp hr⟩
  have hprogram : root.toProgram.result = .ok p := mapError_eq_ok_iff.mp hp
  unfold toProgram at hprogram
  split at hprogram
  · obtain ⟨items, hitems, heq⟩ := Logged.bind_eq_ok_iff.mp hprogram
    cases heq
    exact exists_item hitems
  · cases hprogram

end Node

/-! ## The names that are known -/

namespace Registry

/-- The variable is a global or a local name of the routine, if there is one. -/
def Declares (r : Registry) (owner? : Option String) (name : String) : Prop :=
  r.globals.contains name = true ∨
    ∃ owner table, owner? = some owner ∧ r.locals? owner = some table ∧
      table.contains name = true

end Registry

namespace Program

variable {p : Program} {item : Item}

theorem WellFormed.bodyFits (h : p.WellFormed) (hitem : item ∈ p.items) :
    p.BodyFits item.locals item.body := by
  cases item with
  | main main => exact h.main_bodies main hitem
  | routine routine => exact h.routine_bodies routine (mem_routines_iff.mpr hitem)

theorem WellFormed.locals?_registry (h : p.WellFormed) {routine : Routine}
    (hroutine : routine ∈ p.routines) :
    p.registry.locals? routine.name = some routine.table := by
  unfold registry
  rw [Registry.locals?_listing h.routines_distinct,
    (find?_name_eq_some_iff h.routines_distinct).mpr ⟨hroutine, rfl⟩]
  rfl

/-- In a well-formed program the names in a body are known to the registry. -/
theorem WellFormed.contains_callee (h : p.WellFormed) (hitem : item ∈ p.items) {callee : String}
    (hcall : .call callee ∈ Stmt.eventsEach item.body) :
    p.registry.signatures.contains callee = true := by
  refine Registry.contains_signatures_listing_iff.mpr ?_
  rw [List.mem_append, List.mem_map]
  exact (h.bodyFits hitem).calls callee (Stmt.call_mem_eventsEach_iff.mp hcall)

theorem WellFormed.declares_target (h : p.WellFormed) (hitem : item ∈ p.items) {target : String}
    {tag : Tag} (hassign : .assign target tag ∈ Stmt.eventsEach item.body) :
    p.registry.Declares item.owner? target := by
  obtain ⟨ty, hty, -⟩ :=
    (h.bodyFits hitem).assignments target tag (Stmt.assign_mem_eventsEach_iff.mp hassign)
  rcases hty with hlocal | hglobal
  · right
    cases item with
    | main main => cases hlocal
    | routine routine =>
      have htable := h.locals?_registry (mem_routines_iff.mpr hitem)
      refine ⟨routine.name, routine.table, rfl, htable, contains_localListing_iff.mpr ?_⟩
      exact List.mem_map.mpr ⟨_, hlocal, rfl⟩
  · left
    refine Registry.contains_globals_listing_iff.mpr ?_
    exact List.mem_map.mpr ⟨_, hglobal.2, rfl⟩

end Program

namespace Site

/-- The callee of a call has a signature, and the target of an assignment that is read as a statement
is declared. -/
structure Resolved (r : Registry) (owner? : Option String) (s : Site) : Prop where
  call : s.node.kind = .functionCall →
    ∃ callee, s.node.callee = .ok callee ∧ r.signatures.contains callee = true
  assignment : s.position = .statement → s.node.kind = .assignment →
    ∃ target, s.node.attribute? "name" = some target ∧ r.Declares owner? target

end Site

namespace Node

/-- The events of what is read in the statements of a node are events of the item that it stands for. -/
theorem StandsFor.exists_events {node : Node} {item : Item} (h : node.StandsFor item) {s : Node}
    (hs : s ∈ node.statements) {site : Site} (hreads : Site.Reads ⟨.statement, s⟩ site) :
    ∃ events, site.events = .ok events ∧ events ⊆ Stmt.eventsEach item.body := by
  obtain ⟨blocks, hblocks, hall⟩ := Site.exists_blocks_of_stmts h.body
  obtain ⟨block, hblock, hstmts⟩ := exists_of_mapM_eq_ok hblocks s hs
  have hsite : Site.events ⟨.statement, s⟩ = .ok (Stmt.eventsEach block) :=
    map_eq_ok_iff.mpr ⟨block, hstmts, rfl⟩
  obtain ⟨events, hevents, hsubset⟩ := hreads.exists_events hsite
  refine ⟨events, hevents, fun ev hev => ?_⟩
  rw [hall]
  exact List.mem_flatten.mpr ⟨_, List.mem_map_of_mem hblock, hsubset hev⟩

/-- Each call and each assignment that is read in the bodies of an accepted tree is resolved. -/
theorem check_sound (root : Node) (mode : Mode) (r : Registry)
    (h : (root.check mode).result = .ok r) :
    ∀ node ∈ root.children, ∀ s ∈ node.statements, ∀ site, Site.Reads ⟨.statement, s⟩ site →
      site.Resolved r node.owner? := by
  obtain ⟨p, hitems, hr⟩ := exists_program h
  -- a program that is accepted in either mode is accepted with all signatures hoisted
  have hhoisting : (p.analyze .hoisting).result = .ok r := by
    cases mode with
    | hoisting => exact hr
    | singlePass => exact Program.result_hoisting_of_singlePass hr
  obtain ⟨hmet, hregistry⟩ := Program.result_analyze_eq_ok_iff.mp hhoisting
  have hformed : p.WellFormed := Program.forall_met_iff_wellFormed.mp hmet
  intro node hnode s hs site hreads
  obtain ⟨item, hitem, hstands⟩ := hitems node hnode
  obtain ⟨events, hevents, hsubset⟩ := hstands.exists_events hs hreads
  obtain ⟨own, rest, hown, -, heq⟩ := Site.events_eq hevents
  -- what the site has by itself is checked with the body of its item
  have hchecked : own ⊆ Stmt.eventsEach item.body := by
    intro ev hev
    exact hsubset (heq ▸ List.mem_append_left _ hev)
  rw [← hregistry]
  constructor
  · intro hkind
    obtain ⟨callee, hcallee, hcall⟩ := hown.call hkind
    refine ⟨callee, hcallee, hformed.contains_callee hitem (hchecked ?_)⟩
    rw [hcall]
    exact List.mem_singleton_self _
  · intro hposition hkind
    obtain ⟨target, tag, hname, hassign⟩ := hown.assignment hposition hkind
    have hevent : .assign target tag ∈ own := by
      rw [hassign]
      exact List.mem_singleton_self _
    rw [← hstands.owner]
    exact ⟨target, hname, hformed.declares_target hitem (hchecked hevent)⟩

/-! ## Trees with one statement -/

/-- A main procedure that declares the integer `x` and consists of this statement. -/
def mainOf (s : Node) : Node :=
  let x := ((ofKind .declaration).withAttribute "name" "x").withAttribute "type" "Integer"
  (ofKind .mainProc).withChildren [x, s]

/-- The tree of such a main procedure alone. -/
def inMain (s : Node) : Node :=
  (ofKind .program).withChildren [mainOf s]

/-- The registry of such a tree. -/
def inMainRegistry : Registry :=
  Program.registry ⟨[.main ⟨[⟨"x", .integer⟩], []⟩]⟩

/-- An integer literal. -/
def one : Node :=
  ((ofKind .operand).withAttribute "value" "1").withAttribute "argType" "Integer"

/-- A call without arguments. -/
def callOf (callee : String) : Node :=
  ((ofKind .functionCall).withAttribute "funcName" callee).withAttribute "argType" "FunctionCall"

/-- An identifier. -/
def idOf (name : String) : Node :=
  (ofKind .id).withAttribute "name" name

/-- An assignment to a variable with these operands. -/
def assignmentTo (target : String) (operands : List Node) : Node :=
  ((ofKind .assignment).withAttribute "name" target).withChildren operands

/-- The call in an assignment of its value is read as an expression. -/
theorem call_in_assignment_resolved :
    ((inMain (assignmentTo "x" [callOf "getInt"])).check .hoisting).result = .ok inMainRegistry ∧
      Site.Resolved inMainRegistry none ⟨.expression, callOf "getInt"⟩ := by
  have hok : ((inMain (assignmentTo "x" [callOf "getInt"])).check .hoisting).result =
      .ok inMainRegistry := by rfl
  have hreads : Site.Reads ⟨.statement, assignmentTo "x" [callOf "getInt"]⟩
      ⟨.expression, callOf "getInt"⟩ := .deeper (List.mem_singleton_self _) .here
  refine ⟨hok, ?_⟩
  exact check_sound _ .hoisting _ hok _ (List.mem_singleton_self _) _ (List.mem_singleton_self _) _
    hreads

/-- The node `d` is the other one or stands below it. -/
inductive Within (d : Node) : Node → Prop
  | here : Within d d
  | deeper {c n : Node} (inside : Within d c) (child : c ∈ n.children) : Within d n

/-- If the tree is accepted, then all calls and assignments in its bodies are resolved, whether they
are read or not. -/
def NothingEscapes (root : Node) : Prop :=
  ∀ r, (root.check .hoisting).result = .ok r → ∀ node ∈ root.children, ∀ s ∈ node.statements,
    ∀ d, Within d s →
      (d.kind = .functionCall →
        ∃ callee, d.callee = .ok callee ∧ r.signatures.contains callee = true) ∧
      (d.kind = .assignment →
        ∃ target, d.attribute? "name" = some target ∧ r.Declares node.owner? target)

theorem escapes_of_call {s : Node} (hok : ((inMain s).check .hoisting).result = .ok inMainRegistry)
    (hstatements : (mainOf s).statements = [s]) (hin : Within (callOf "nope") s) :
    ¬NothingEscapes (inMain s) := by
  intro h
  have hs : s ∈ (mainOf s).statements := by simp [hstatements]
  obtain ⟨hcall, -⟩ := h inMainRegistry hok (mainOf s) (List.mem_singleton_self _) s hs _ hin
  obtain ⟨callee, hcallee, hknown⟩ := hcall rfl
  cases hcallee
  cases hknown

/-- A call escapes below a node with a value, below the identifier of another call and below a
comparison operator, and an assignment escapes where it stands as an operand. -/
theorem unread_nodes_escape :
    ¬NothingEscapes (inMain (assignmentTo "x" [one.withChildren [callOf "nope"]])) ∧
      ¬NothingEscapes (inMain ((callOf "echo").withChildren
        [(ofKind .id).withChildren [callOf "nope"]])) ∧
      ¬NothingEscapes (inMain (assignmentTo "x"
        [((ofKind .comparison).withAttribute "argType" "Integer").withChildren
          [one, (ofKind .comparisonOperator).withChildren [callOf "nope"], one]])) ∧
      ¬NothingEscapes (inMain (assignmentTo "x" [assignmentTo "nope" [one]])) := by
  refine ⟨?value, ?identifier, ?comparison, ?operand⟩
  case value =>
    refine escapes_of_call (by rfl) (by rfl) ?_
    exact .deeper (.deeper .here (List.mem_singleton_self _)) (List.mem_singleton_self _)
  case identifier =>
    refine escapes_of_call (by rfl) (by rfl) ?_
    exact .deeper (.deeper .here (List.mem_singleton_self _)) (List.mem_singleton_self _)
  case comparison =>
    have hoperator : Within (callOf "nope")
        ((ofKind .comparisonOperator).withChildren [callOf "nope"]) :=
      .deeper .here (List.mem_singleton_self _)
    refine escapes_of_call (by rfl) (by rfl) ?_
    refine .deeper (.deeper hoperator ?_) (List.mem_singleton_self _)
    exact List.mem_cons_of_mem _ (List.mem_cons_self ..)
  case operand =>
    intro h
    have hok : ((inMain (assignmentTo "x" [assignmentTo "nope" [one]])).check .hoisting).result =
        .ok inMainRegistry := by rfl
    obtain ⟨-, hassignment⟩ := h inMainRegistry hok _ (List.mem_singleton_self _) _
      (List.mem_singleton_self _) (assignmentTo "nope" [one])
      (.deeper .here (List.mem_singleton_self _))
    obtain ⟨target, htarget, hdeclared⟩ := hassignment rfl
    cases htarget
    rcases hdeclared with hglobal | hlocal
    · cases hglobal
    · obtain ⟨owner, table, howner, -⟩ := hlocal
      cases howner

end Node

end StaticCheck
