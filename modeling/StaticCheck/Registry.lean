import StaticCheck.LocalTable
import StaticCheck.Program
import StaticCheck.Violation

/-!
# The registry of names

A registry holds the global variables, the signatures of all routines declared so
far and the tables of local names of the routines already checked. Globals and
routines share one namespace, which the built-in routines of `builtins` enter
first (`initial`).

A declaration either adds its name or is refused with the violation that it would
be: `declareGlobal`, `declareRoutine`. Local names are collected into a table of
their own against the globals, the parameters before the local variables:
`localsOf`. Local names may be those of routines.
-/

namespace StaticCheck

/-- The signatures that are known without a declaration. -/
def builtins : List Signature :=
  [⟨"getInt", VarTy.integer, []⟩, ⟨"getString", VarTy.string, []⟩, ⟨"getBool", VarTy.boolean, []⟩,
    ⟨"getFloat", VarTy.float, []⟩, ⟨"echo", .none, []⟩]

/-- Global variables, signatures, and the local tables by the routines that own them. -/
structure Registry where
  globals : Table VarTy
  signatures : Table Signature
  locals : Table LocalTable
  deriving DecidableEq

namespace Registry

/-- The registry that knows the built-in routines only. -/
def initial : Registry where
  globals := .empty
  signatures := .ofList (builtins.map fun s => (s.name, s))
  locals := .empty

/-- The type of a global variable. -/
def global? (r : Registry) (name : String) : Option VarTy :=
  r.globals.get? name

/-- The signature of a routine. -/
def signature? (r : Registry) (name : String) : Option Signature :=
  r.signatures.get? name

/-- The local table stored for `owner`. -/
def locals? (r : Registry) (owner : String) : Option LocalTable :=
  r.locals.get? owner

/-- Adds a global variable, if no global and no routine has its name. -/
def declareGlobal (r : Registry) (d : Declaration) : Except Violation Registry :=
  if r.globals.contains d.name || r.signatures.contains d.name then
    .error (.duplicateGlobal d.name)
  else
    .ok { r with globals := r.globals.insert d.name d.ty }

/-- Adds a signature, if no global and no routine has its name. -/
def declareRoutine (r : Registry) (s : Signature) : Except Violation Registry :=
  if r.globals.contains s.name then
    .error (.routineTakesGlobal s.name)
  else if r.signatures.contains s.name then
    .error (.duplicateRoutine s.name)
  else
    .ok { r with signatures := r.signatures.insert s.name s }

/-- Stores the local table of `owner`, in the place of an earlier one. -/
def insertLocals (r : Registry) (owner : String) (table : LocalTable) : Registry :=
  { r with locals := r.locals.insert owner table }

/-- Adds a parameter of `routine` to the local names collected so far. -/
def addParameter (r : Registry) (routine : String) (table : LocalTable) (p : Declaration) :
    Except Violation LocalTable :=
  if r.globals.contains p.name then
    .error (.parameterTakesGlobal routine p.name)
  else if table.contains p.name then
    .error (.duplicateParameter routine p.name)
  else
    .ok (table.insert p.name ⟨p.ty, .parameter⟩)

/-- Adds a local variable of `routine` to the local names collected so far. -/
def addLocal (r : Registry) (routine : String) (table : LocalTable) (d : Declaration) :
    Except Violation LocalTable :=
  if r.globals.contains d.name then
    .error (.localTakesGlobal routine d.name)
  else if table.contains d.name then
    .error (.duplicateLocal routine d.name)
  else
    .ok (table.insert d.name ⟨d.ty, .var⟩)

/-- The local names of a routine: its parameters, then its local variables. -/
def localsOf (r : Registry) (h : Header) : Except Violation LocalTable := do
  let parameters ← h.parameters.foldlM (r.addParameter h.name) .empty
  h.locals.foldlM (r.addLocal h.name) parameters

end Registry

end StaticCheck
