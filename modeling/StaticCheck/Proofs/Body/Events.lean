import StaticCheck.Body

/-!
# The events of a body

Of all that a body says, the checker looks at two things: the assignments, each with its target and
the tag on its value, and the callees. `Stmt.eventsEach` lists them in the order in which they are
looked at. The check of a body is the check of its events, one after the other: `checkBody_eq`.

The lists are defined along the trees. `Expr.calls_eq` and `Stmt.events_eq` put them in terms of
what stands directly in an expression or a statement (`Stmt.exprs`) and directly below it
(`Expr.children`, `Stmt.inner`).
-/

namespace StaticCheck

/-- One thing that the checker looks at in a body. -/
inductive Event where
  | assign (target : String) (tag : Tag)
  | call (callee : String)
  deriving DecidableEq

namespace Expr

mutual

/-- The callees in an expression, a call before those in its arguments. -/
def calls : Expr → List String
  | literal _ _ => []
  | var _ _ => []
  | element _ _ index => index.calls
  | call _ callee arguments => callee :: callsEach arguments
  | unary _ _ operand => operand.calls
  | binary _ left _ right => left.calls ++ right.calls

/-- The callees in a list of expressions. -/
def callsEach : List Expr → List String
  | [] => []
  | e :: es => e.calls ++ callsEach es

end

theorem callsEach_eq (es : List Expr) : callsEach es = es.flatMap calls := by
  induction es with
  | nil => rfl
  | cons e es ih => rw [callsEach, ih, List.flatMap_cons]

/-- The callees of an expression are its own, if it is a call, and then those of its children. -/
theorem calls_eq (e : Expr) : e.calls = e.callee?.toList ++ e.children.flatMap calls := by
  cases e with
  | literal => rfl
  | var => rfl
  | element _ _ index => simp [calls, callee?, children]
  | call _ _ arguments => simp [calls, callee?, children, callsEach_eq]
  | unary _ _ operand => simp [calls, callee?, children]
  | binary _ left _ right => simp [calls, callee?, children]

/-- What holds of an expression as soon as it holds of its children holds of all expressions. -/
theorem induction_children {motive : Expr → Prop}
    (step : ∀ e : Expr, (∀ c ∈ e.children, motive c) → motive e) (e : Expr) : motive e := by
  refine Expr.rec (motive_1 := motive) (motive_2 := fun es => ∀ c ∈ es, motive c)
    ?_ ?_ ?_ ?_ ?_ ?_ ?_ ?_ e
  · intro tag value
    exact step _ fun c hc => absurd hc List.not_mem_nil
  · intro tag name
    exact step _ fun c hc => absurd hc List.not_mem_nil
  · intro tag name index ih
    exact step _ fun c hc => List.mem_singleton.mp hc ▸ ih
  · intro tag callee arguments ih
    exact step _ ih
  · intro tag operator operand ih
    exact step _ fun c hc => List.mem_singleton.mp hc ▸ ih
  · intro tag left operator right ihl ihr
    refine step _ fun c hc => ?_
    rcases List.mem_cons.mp hc with rfl | hc
    · exact ihl
    · exact List.mem_singleton.mp hc ▸ ihr
  · intro c hc
    exact absurd hc List.not_mem_nil
  · intro head tail ih ihs c hc
    rcases List.mem_cons.mp hc with rfl | hc
    · exact ih
    · exact ihs c hc

end Expr

namespace Stmt

/-- The expressions that stand directly in a statement, in the order in which they are checked. -/
def exprs : Stmt → List Expr
  | assign _ index value => index.toList ++ [value]
  | call _ arguments => arguments
  | branch condition _ _ => [condition]
  | loop condition _ => [condition]

/-- The statements directly below a statement, in the order of the text. -/
def inner : Stmt → List Stmt
  | assign _ _ _ => []
  | call _ _ => []
  | branch _ thenBody elseBody => thenBody ++ elseBody.getD []
  | loop _ body => body

/-- What the checker looks at in a statement by itself. -/
def own : Stmt → List Event
  | assign target _ value => [.assign target value.tag]
  | call callee _ => [.call callee]
  | branch _ _ _ => []
  | loop _ _ => []

/-- The calls of expressions as events. -/
def callEvents (es : List Expr) : List Event :=
  (es.flatMap Expr.calls).map .call

@[simp]
theorem callEvents_append (xs ys : List Expr) :
    callEvents (xs ++ ys) = callEvents xs ++ callEvents ys := by
  simp [callEvents]

theorem callEvents_singleton (e : Expr) : callEvents [e] = e.calls.map .call := by
  simp [callEvents]

theorem callEvents_call (tag : Tag) (callee : String) (arguments : List Expr) :
    callEvents [.call tag callee arguments] = .call callee :: callEvents arguments := by
  simp [callEvents, Expr.calls, Expr.callsEach_eq]

theorem callEvents_element (tag : Tag) (name : String) (index : Expr) :
    callEvents [.element tag name index] = callEvents [index] := by
  simp [callEvents, Expr.calls]

theorem callEvents_eq_flatten (es : List Expr) :
    callEvents es = (es.map fun e => callEvents [e]).flatten := by
  induction es with
  | nil => rfl
  | cons e es ih =>
    rw [List.map_cons, List.flatten_cons, ← ih]
    exact callEvents_append [e] es

mutual

/-- What the checker looks at in a statement: an assignment before the calls in its index and its
value, a call before those in its arguments, a condition before the statements that it guards. -/
def events : Stmt → List Event
  | assign target index value =>
    .assign target value.tag :: callEvents (index.toList ++ [value])
  | call callee arguments => .call callee :: callEvents arguments
  | branch condition thenBody none => callEvents [condition] ++ eventsEach thenBody
  | branch condition thenBody (some elseBody) =>
    callEvents [condition] ++ (eventsEach thenBody ++ eventsEach elseBody)
  | loop condition body => callEvents [condition] ++ eventsEach body

/-- What the checker looks at in a list of statements. -/
def eventsEach : List Stmt → List Event
  | [] => []
  | s :: ss => s.events ++ eventsEach ss

end

theorem eventsEach_eq (ss : List Stmt) : eventsEach ss = ss.flatMap events := by
  induction ss with
  | nil => rfl
  | cons s ss ih => rw [eventsEach, ih, List.flatMap_cons]

@[simp]
theorem eventsEach_append (xs ys : List Stmt) :
    eventsEach (xs ++ ys) = eventsEach xs ++ eventsEach ys := by
  simp [eventsEach_eq]

@[simp]
theorem eventsEach_singleton (s : Stmt) : eventsEach [s] = s.events := by
  simp [eventsEach]

theorem eventsEach_flatten (blocks : List (List Stmt)) :
    eventsEach blocks.flatten = (blocks.map eventsEach).flatten := by
  induction blocks with
  | nil => rfl
  | cons block blocks ih => simp [ih]

/-- The events of a statement are its own, then the calls of its expressions, then the events of the
statements below. -/
theorem events_eq (s : Stmt) :
    s.events = s.own ++ callEvents s.exprs ++ s.inner.flatMap events := by
  cases s with
  | assign => simp [events, own, exprs, inner]
  | call => simp [events, own, exprs, inner]
  | branch _ _ elseBody => cases elseBody <;> simp [events, own, exprs, inner, eventsEach_eq]
  | loop => simp [events, own, exprs, inner, eventsEach_eq]

/-- What holds of a statement as soon as it holds of those directly below holds of all statements. -/
theorem induction_inner {motive : Stmt → Prop}
    (step : ∀ s : Stmt, (∀ t ∈ s.inner, motive t) → motive s) (s : Stmt) : motive s := by
  refine Stmt.rec (motive_1 := motive) (motive_2 := fun ss => ∀ t ∈ ss, motive t)
    (motive_3 := fun elseBody => ∀ t ∈ elseBody.getD [], motive t) ?_ ?_ ?_ ?_ ?_ ?_ ?_ ?_ s
  · intro target index value
    exact step _ fun t ht => absurd ht List.not_mem_nil
  · intro callee arguments
    exact step _ fun t ht => absurd ht List.not_mem_nil
  · intro condition thenBody elseBody ihThen ihElse
    refine step _ fun t ht => ?_
    rcases List.mem_append.mp ht with ht | ht
    · exact ihThen t ht
    · exact ihElse t ht
  · intro condition body ih
    exact step _ ih
  · intro t ht
    exact absurd ht List.not_mem_nil
  · intro head tail ih ihs t ht
    rcases List.mem_cons.mp ht with rfl | ht
    · exact ih
    · exact ihs t ht
  · intro t ht
    exact absurd ht List.not_mem_nil
  · intro elseBody ih
    exact ih

end Stmt

namespace Registry

/-- The check of one event. -/
def check (r : Registry) (scope : Scope) : Event → Logged Violation Unit
  | .assign target tag => r.checkAssignment scope target tag
  | .call callee => r.checkCall callee

/-- The check of a list of events, one after the other. -/
def checkEvents (r : Registry) (scope : Scope) (events : List Event) : Logged Violation Unit :=
  events.forM (r.check scope)

@[simp]
theorem checkEvents_cons (r : Registry) (scope : Scope) (event : Event) (events : List Event) :
    r.checkEvents scope (event :: events) =
      (r.check scope event >>= fun _ => r.checkEvents scope events) := rfl

@[simp]
theorem checkEvents_append (r : Registry) (scope : Scope) (xs ys : List Event) :
    r.checkEvents scope (xs ++ ys) =
      (r.checkEvents scope xs >>= fun _ => r.checkEvents scope ys) :=
  List.forM_append

mutual

theorem checkExpr_eq (r : Registry) (scope : Scope) :
    ∀ e : Expr, r.checkExpr e = r.checkEvents scope (e.calls.map .call)
  | .literal _ _ => rfl
  | .var _ _ => rfl
  | .element _ _ index => by simp [checkExpr, Expr.calls, checkExpr_eq r scope index]
  | .call _ callee arguments => by
    simp [checkExpr, Expr.calls, check, checkExprs_eq r scope arguments]
  | .unary _ _ operand => by simp [checkExpr, Expr.calls, checkExpr_eq r scope operand]
  | .binary _ left _ right => by
    simp [checkExpr, Expr.calls, checkExpr_eq r scope left, checkExpr_eq r scope right]

theorem checkExprs_eq (r : Registry) (scope : Scope) :
    ∀ es : List Expr, r.checkExprs es = r.checkEvents scope ((Expr.callsEach es).map .call)
  | [] => rfl
  | e :: es => by
    simp [checkExprs, Expr.callsEach, checkExpr_eq r scope e, checkExprs_eq r scope es]

end

theorem checkExprs_eq_callEvents (r : Registry) (scope : Scope) (es : List Expr) :
    r.checkExprs es = r.checkEvents scope (Stmt.callEvents es) := by
  rw [checkExprs_eq r scope, Expr.callsEach_eq, Stmt.callEvents]

theorem checkExpr_eq_callEvents (r : Registry) (scope : Scope) (e : Expr) :
    r.checkExpr e = r.checkEvents scope (Stmt.callEvents [e]) := by
  rw [checkExpr_eq r scope, Stmt.callEvents_singleton]

mutual

theorem checkStmt_eq (r : Registry) (scope : Scope) :
    ∀ s : Stmt, r.checkStmt scope s = r.checkEvents scope s.events
  | .assign target none value => by
    simp [checkStmt, Stmt.events, check, checkExpr_eq_callEvents r scope]
  | .assign target (some index) value => by
    rw [Stmt.events, Stmt.callEvents_append]
    simp [checkStmt, check, checkExpr_eq_callEvents r scope]
  | .call callee arguments => by
    simp [checkStmt, Stmt.events, check, checkExprs_eq_callEvents r scope]
  | .branch condition thenBody none => by
    simp [checkStmt, Stmt.events, checkExpr_eq_callEvents r scope, checkBody_eq r scope thenBody]
  | .branch condition thenBody (some elseBody) => by
    simp [checkStmt, Stmt.events, checkExpr_eq_callEvents r scope, checkBody_eq r scope thenBody,
      checkBody_eq r scope elseBody]
  | .loop condition body => by
    simp [checkStmt, Stmt.events, checkExpr_eq_callEvents r scope, checkBody_eq r scope body]

/-- The check of a body is the check of its events. -/
theorem checkBody_eq (r : Registry) (scope : Scope) :
    ∀ body : List Stmt, r.checkBody scope body = r.checkEvents scope (Stmt.eventsEach body)
  | [] => rfl
  | s :: ss => by
    simp [checkBody, Stmt.eventsEach, checkStmt_eq r scope s, checkBody_eq r scope ss]

end

end Registry

end StaticCheck
