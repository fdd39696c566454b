import StaticCheck.Logged
import StaticCheck.Registry
import StaticCheck.Scope

/-!
# Checking a body

The statements of a body are checked in the order of the text, up to the first
violation. Two things are checked. An assignment needs a known target and a
value whose tag resolves to the type of the target (`checkAssignment`); a call
needs a known callee (`checkCall`), and nothing is asked of its arguments but
that the calls among them have known callees too.

The registry does not change on the way.
-/

namespace StaticCheck

namespace Registry

/-- The type of a variable: that of a local name, or else of a global one. -/
def ty? (r : Registry) (scope : Scope) (name : String) : Option VarTy :=
  match scope.ty? name with
  | some ty => some ty
  | none => r.global? name

/-- The type of a variable that has to be known. -/
def resolve (r : Registry) (scope : Scope) (name : String) : Logged Violation VarTy := do
  .emit (.resolving name scope.owner?)
  match r.ty? scope name with
  | some ty => return ty
  | none => .fail (.undeclaredVariable name)

/-- What a value under this tag offers to an assignment. -/
def received (r : Registry) : Tag → Except Violation Received
  | .integer => .ok (.typed VarTy.integer)
  | .string => .ok (.typed VarTy.string)
  | .boolean => .ok (.typed VarTy.boolean)
  | .var => .ok .var
  | .functionCall callee =>
    match r.signature? callee with
    | none => .error (.undefinedCallee callee)
    | some signature =>
      if signature.isProcedure then .error (.procedureAsValue callee)
      else .ok (.typed signature.returnTy)
  | .other _ => .ok .unknown

/-- The target is resolved first, then the tag, and then their types are compared. -/
def checkAssignment (r : Registry) (scope : Scope) (target : String) (tag : Tag) :
    Logged Violation Unit := do
  let expected ← r.resolve scope target
  let received ← r.received tag
  .emit (.assignment target expected received)
  if received.fits expected then return ()
  else .fail (.typeMismatch target expected received)

/-- The callee has to be known. -/
def checkCall (r : Registry) (callee : String) : Logged Violation Unit := do
  .emit (.calling callee)
  if r.signatures.contains callee then return ()
  else .fail (.undefinedCallee callee)

mutual

/-- Checks the calls in an expression, a call before those in its arguments. -/
def checkExpr (r : Registry) : Expr → Logged Violation Unit
  | .literal _ _ => return ()
  | .var _ _ => return ()
  | .element _ _ index => r.checkExpr index
  | .call _ callee arguments => do
    r.checkCall callee
    r.checkExprs arguments
  | .unary _ _ operand => r.checkExpr operand
  | .binary _ left _ right => do
    r.checkExpr left
    r.checkExpr right

/-- Checks expressions one after the other. -/
def checkExprs (r : Registry) : List Expr → Logged Violation Unit
  | [] => return ()
  | e :: es => do
    r.checkExpr e
    r.checkExprs es

end

mutual

/-- Checks an assignment before the calls in its index and its value, a call before those in its
arguments, and a condition before the statements that it guards. -/
def checkStmt (r : Registry) (scope : Scope) : Stmt → Logged Violation Unit
  | .assign target none value => do
    r.checkAssignment scope target value.tag
    r.checkExpr value
  | .assign target (some index) value => do
    r.checkAssignment scope target value.tag
    r.checkExpr index
    r.checkExpr value
  | .call callee arguments => do
    r.checkCall callee
    r.checkExprs arguments
  | .branch condition thenBody none => do
    r.checkExpr condition
    r.checkBody scope thenBody
  | .branch condition thenBody (some elseBody) => do
    r.checkExpr condition
    r.checkBody scope thenBody
    r.checkBody scope elseBody
  | .loop condition body => do
    r.checkExpr condition
    r.checkBody scope body

/-- Checks statements one after the other. -/
def checkBody (r : Registry) (scope : Scope) : List Stmt → Logged Violation Unit
  | [] => return ()
  | s :: ss => do
    r.checkStmt scope s
    r.checkBody scope ss

end

end Registry

end StaticCheck
