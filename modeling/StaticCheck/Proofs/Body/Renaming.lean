import StaticCheck.Proofs.Body.Events

/-!
# Renamed bodies

A renaming `s` replaces each name of a body at which the checker looks: the targets of assignments and
the callees, those in tags as well. Variables that are read keep their names, since nothing is asked
of them. The events of a renamed body are the renamed events: `Stmt.eventsEach_rename`.
-/

namespace StaticCheck

/-- The tag with its callee renamed, if it has one. -/
def Tag.rename (s : String → String) : Tag → Tag
  | integer => integer
  | string => string
  | boolean => boolean
  | var => var
  | functionCall callee => functionCall (s callee)
  | other raw => other raw

/-- The event with its name and the callee in its tag renamed. -/
def Event.rename (s : String → String) : Event → Event
  | assign target tag => assign (s target) (tag.rename s)
  | call callee => call (s callee)

namespace Expr

mutual

/-- The expression with its callees renamed, those in its tags too. -/
def rename (s : String → String) : Expr → Expr
  | literal tag value => literal (tag.rename s) value
  | var tag name => var (tag.rename s) name
  | element tag name index => element (tag.rename s) name (index.rename s)
  | call tag callee arguments => call (tag.rename s) (s callee) (renameEach s arguments)
  | unary tag operator operand => unary (tag.rename s) operator (operand.rename s)
  | binary tag left operator right =>
    binary (tag.rename s) (left.rename s) operator (right.rename s)

/-- The expressions of a list, each of them renamed. -/
def renameEach (s : String → String) : List Expr → List Expr
  | [] => []
  | e :: es => e.rename s :: renameEach s es

end

@[simp]
theorem tag_rename (s : String → String) (e : Expr) : (e.rename s).tag = e.tag.rename s := by
  cases e <;> rfl

mutual

@[simp]
theorem calls_rename (s : String → String) : ∀ e : Expr, (e.rename s).calls = e.calls.map s
  | literal _ _ => rfl
  | var _ _ => rfl
  | element _ _ index => by simp [rename, calls, calls_rename s index]
  | call _ _ arguments => by simp [rename, calls, callsEach_rename s arguments]
  | unary _ _ operand => by simp [rename, calls, calls_rename s operand]
  | binary _ left _ right => by simp [rename, calls, calls_rename s left, calls_rename s right]

@[simp]
theorem callsEach_rename (s : String → String) :
    ∀ es : List Expr, callsEach (renameEach s es) = (callsEach es).map s
  | [] => rfl
  | e :: es => by simp [renameEach, callsEach, calls_rename s e, callsEach_rename s es]

end

end Expr

namespace Stmt

mutual

/-- The statement with its targets and callees renamed, those in tags too. -/
def rename (s : String → String) : Stmt → Stmt
  | assign target index value => assign (s target) (index.map (·.rename s)) (value.rename s)
  | call callee arguments => call (s callee) (Expr.renameEach s arguments)
  | branch condition thenBody none => branch (condition.rename s) (renameEach s thenBody) none
  | branch condition thenBody (some elseBody) =>
    branch (condition.rename s) (renameEach s thenBody) (some (renameEach s elseBody))
  | loop condition body => loop (condition.rename s) (renameEach s body)

/-- The statements of a list, each of them renamed. -/
def renameEach (s : String → String) : List Stmt → List Stmt
  | [] => []
  | t :: ts => t.rename s :: renameEach s ts

end

@[simp]
theorem callEvents_rename (s : String → String) (es : List Expr) :
    callEvents (Expr.renameEach s es) = (callEvents es).map (Event.rename s) := by
  simp [callEvents, ← Expr.callsEach_eq, Event.rename, Function.comp_def]

mutual

@[simp]
theorem events_rename (s : String → String) :
    ∀ t : Stmt, (t.rename s).events = t.events.map (Event.rename s)
  | assign target none value => by
    have hvalue := callEvents_rename s [value]
    simpa [rename, events, Event.rename, Expr.renameEach] using hvalue
  | assign target (some index) value => by
    have hexprs := callEvents_rename s [index, value]
    simpa [rename, events, Event.rename, Expr.renameEach] using hexprs
  | call callee arguments => by simp [rename, events, Event.rename]
  | branch condition thenBody none => by
    have hcondition := callEvents_rename s [condition]
    simpa [rename, events, eventsEach_rename s thenBody, Expr.renameEach] using hcondition
  | branch condition thenBody (some elseBody) => by
    have hcondition := callEvents_rename s [condition]
    simpa [rename, events, eventsEach_rename s thenBody, eventsEach_rename s elseBody,
      Expr.renameEach] using hcondition
  | loop condition body => by
    have hcondition := callEvents_rename s [condition]
    simpa [rename, events, eventsEach_rename s body, Expr.renameEach] using hcondition

/-- A renamed body has the renamed events. -/
@[simp]
theorem eventsEach_rename (s : String → String) :
    ∀ ts : List Stmt, eventsEach (renameEach s ts) = (eventsEach ts).map (Event.rename s)
  | [] => rfl
  | t :: ts => by simp [renameEach, eventsEach, events_rename s t, eventsEach_rename s ts]

end

end Stmt

end StaticCheck
