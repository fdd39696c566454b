import StaticCheck.Logged
import StaticCheck.Tree.Stmt

/-!
# The program of a syntax tree

`Node.toProgram` reads a program off the root of its tree. A main procedure
starts with its declarations. The children of a routine are, in this order, an
identifier that may be missing, the parameters, in functions the return type
that may be missing too, the local variables, and the statements
(`RoutineParts`).

A record is left for each routine, once its header is read.
-/

namespace StaticCheck

/-- The children of a routine by their parts. -/
structure RoutineParts where
  parameters : List Node
  returnTy : Option Node
  locals : List Node
  statements : List Node

namespace RoutineParts

/-- The node in front, if it is of this kind. -/
def front? (kind : NodeKind) (nodes : List Node) : Option Node :=
  nodes.head?.filter (·.is kind)

/-- The nodes without the one in front, if that is of this kind. -/
def behind (kind : NodeKind) (nodes : List Node) : List Node :=
  if (front? kind nodes).isSome then nodes.tail else nodes

/-- Parts the children of a function or procedure. -/
def ofChildren (kind : RoutineKind) (children : List Node) : RoutineParts :=
  let named := behind .id children
  let typed := named.dropWhile (·.is .param)
  let declared := match kind with
    | .function => behind .vartype typed
    | .procedure => typed
  { parameters := named.takeWhile (·.is .param)
    returnTy := front? .vartype typed
    locals := declared.takeWhile (·.is .declaration)
    statements := declared.dropWhile (·.is .declaration) }

end RoutineParts

namespace Node

/-- The type called `name`. -/
def readTy (name : String) : Except Malformation Ty :=
  match Ty.ofName? name with
  | some ty => .ok ty
  | none => .error (.unknownType name)

/-- The name and the type that a parameter or declaration states. -/
def toDeclaration (node : Node) : Except Malformation Declaration := do
  let name ← node.require "name"
  let tyName ← node.require "type"
  let ty ← readTy tyName
  match ty.var? with
  | some ty => return ⟨name, ty⟩
  | none => .error (.variableOfTypeNone name)

/-- The name of the type that a function returns: the attribute `returnType`, or the type that the
node of the return type states. -/
def returnTyName (node : Node) (stated : Option Node) : Except Malformation String :=
  match node.attribute? "returnType", stated with
  | some name, _ => .ok name
  | none, some stated => stated.require "type"
  | none, none => .error (.missingAttribute node.kind.name "returnType")

/-- The return type of a function; a procedure has none. -/
def toReturnTy (kind : RoutineKind) (node : Node) (stated : Option Node) :
    Except Malformation (Option Ty) :=
  match kind with
  | .function => do
    let name ← node.returnTyName stated
    let ty ← readTy name
    return some ty
  | .procedure => return none

/-- The attribute that names a routine. -/
def nameKey : RoutineKind → String
  | .function => "funcName"
  | .procedure => "procName"

/-- The header of a routine with these parts. -/
def toHeader (kind : RoutineKind) (node : Node) (parts : RoutineParts) :
    Except Malformation Header := do
  let name ← node.require (nameKey kind)
  let parameters ← parts.parameters.mapM toDeclaration
  let returnTy ← toReturnTy kind node parts.returnTy
  let locals ← parts.locals.mapM toDeclaration
  return { name, parameters, returnTy, locals }

/-- The routine that a node stands for. -/
def toRoutine (kind : RoutineKind) (node : Node) : Logged Malformation Routine := do
  let parts := RoutineParts.ofChildren kind node.children
  let header ← node.toHeader kind parts
  .emit (.lowered kind header.name header.parameters.length)
  let body ← stmts parts.statements
  return { toHeader := header, body }

/-- The main procedure that a node stands for. -/
def toMain (node : Node) : Except Malformation MainProc := do
  let declarations ← (node.children.takeWhile (·.is .declaration)).mapM toDeclaration
  let body ← stmts (node.children.dropWhile (·.is .declaration))
  return { declarations, body }

/-- The items that nodes stand for, of which one may be a main procedure if `mainSeen` is false, and
none otherwise. -/
def toItems (mainSeen : Bool) : List Node → Logged Malformation (List Item)
  | [] => return []
  | node :: nodes =>
    match node.kind with
    | .mainProc =>
      if mainSeen then .fail .duplicateMain
      else do
        let main ← node.toMain
        let items ← toItems true nodes
        return .main main :: items
    | .functionDef => do
      let routine ← node.toRoutine .function
      let items ← toItems mainSeen nodes
      return .routine routine :: items
    | .procedureDef => do
      let routine ← node.toRoutine .procedure
      let items ← toItems mainSeen nodes
      return .routine routine :: items
    | _ => .fail (node.unexpected "MainProc, FunctionDef or ProcedureDef")

/-- The program of a tree. -/
def toProgram (root : Node) : Logged Malformation Program :=
  if root.is .program then do
    let items ← toItems false root.children
    return ⟨items⟩
  else .fail (root.unexpected NodeKind.program.name)

end Node

end StaticCheck
