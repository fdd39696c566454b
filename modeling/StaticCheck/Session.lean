import StaticCheck.Body
import StaticCheck.Registry.Edit

/-!
# Sessions

A session works on a registry by single commands, and keeps local tables under
names of its own. A command either edits the registry, edits a table, or asks
something. What a command changed before it failed stays changed, and the next
command finds it so.
-/

namespace StaticCheck

/-- A scope by the name under which a session keeps its table. -/
inductive ScopeName where
  | outside
  | within (owner table : String)
  deriving DecidableEq

/-- What a session can be told to do. -/
inductive Command where
  | declareGlobal (declaration : Declaration)
  | declareRoutine (signature : Signature)
  | collectGlobals (declarations : List Declaration)
  | declareSignature (header : Header)
  /-- Keeps the local names of a routine under the name `into`. -/
  | collectLocals (header : Header) (into : String)
  /-- Declares the signature, and keeps the local names of a routine under the name `into`. -/
  | collectSignatureAndLocals (header : Header) (into : String)
  | insertLocals (owner table : String)
  | reset
  | askGlobal (name : String)
  | askSignature (name : String)
  | askLocals (owner : String)
  | askBuiltins
  | askRegistry
  /-- Whether the registry knows the built-in routines only. -/
  | isInitial
  | checkCall (callee : String)
  | checkAssignment (target : String) (tag : Tag) (scope : ScopeName)
  | resolve (name : String) (scope : ScopeName)
  | receive (tag : Tag)
  | askScope (scope : ScopeName)
  | newTable (table : String)
  | insertSymbol (table name : String) (symbol : LocalSymbol)
  | askSymbol (table name : String)
  | sameTables (first second : String)
  deriving DecidableEq

/-- What a session answers to a command that succeeds. -/
inductive Reply where
  | done
  | ty (ty : Ty)
  | ty? (ty? : Option Ty)
  | received (received : Received)
  | signature? (signature? : Option Signature)
  | signatures (signatures : List Signature)
  | table (table : LocalTable)
  | table? (table? : Option LocalTable)
  /-- What a table knows of a name, and how many names it knows. -/
  | symbol? (symbol? : Option LocalSymbol) (size : Nat)
  | scope (scope : Scope)
  | truth (value : Bool)
  | registry (registry : Registry)
  deriving DecidableEq

/-- The state between two commands. -/
structure Session where
  registry : Registry
  tables : Table LocalTable
  deriving DecidableEq

namespace Session

/-- The session before its first command. -/
def initial : Session := ⟨.initial, .empty⟩

/-- The table kept under `name`; a name that keeps none stands for the empty table. -/
def table (s : Session) (name : String) : LocalTable :=
  (s.tables.get? name).getD .empty

/-- Keeps `table` under `name`. -/
def keep (s : Session) (name : String) (table : LocalTable) : Session :=
  { s with tables := s.tables.insert name table }

/-- The scope with the table that is kept for it. -/
def scope (s : Session) : ScopeName → Scope
  | .outside => .outside
  | .within owner table => .within owner (s.table table)

/-- A command that changes nothing. -/
def answer (s : Session) (reply : Logged Violation Reply) : Logged Violation Reply × Session :=
  (reply, s)

/-- A command that edits the registry. -/
def edit (s : Session) (x : Edit Unit) : Logged Violation Reply × Session :=
  match x.run s.registry with
  | (outcome, r) => (do outcome; return .done, { s with registry := r })

/-- A command that makes a table and keeps it, if it succeeds. -/
def editInto (s : Session) (x : Edit LocalTable) (into : String) :
    Logged Violation Reply × Session :=
  match x.run s.registry with
  | (⟨.ok table, log⟩, r) =>
    (⟨.ok (.table table), log⟩, { s with registry := r }.keep into table)
  | (⟨.error e, log⟩, r) => (⟨.error e, log⟩, { s with registry := r })

/-- Carries out a command. -/
def step (s : Session) : Command → Logged Violation Reply × Session
  | .declareGlobal declaration => s.edit (.declareGlobal declaration)
  | .declareRoutine signature => s.edit (.declareSignature signature)
  | .collectGlobals declarations => s.edit (.collectGlobals declarations)
  | .declareSignature header => s.edit (.declareSignature header.signature)
  | .collectLocals header into => s.editInto (.collectLocals header) into
  | .collectSignatureAndLocals header into =>
    s.editInto (.collectSignatureAndLocals header) into
  | .insertLocals owner table => s.edit (.insertLocals owner (s.table table))
  | .reset => (return .done, { s with registry := .initial })
  | .askGlobal name => s.answer (return .ty? ((s.registry.global? name).map Ty.var))
  | .askSignature name => s.answer (return .signature? (s.registry.signature? name))
  | .askLocals owner => s.answer (return .table? (s.registry.locals? owner))
  | .askBuiltins => s.answer (return .signatures builtins)
  | .askRegistry => s.answer (return .registry s.registry)
  | .isInitial => s.answer (return .truth (decide (s.registry = .initial)))
  | .checkCall callee => s.answer do
    s.registry.checkCall callee
    return .done
  | .checkAssignment target tag scope => s.answer do
    s.registry.checkAssignment (s.scope scope) target tag
    return .done
  | .resolve name scope => s.answer do
    let ty ← s.registry.resolve (s.scope scope) name
    return .ty ty
  | .receive tag => s.answer do
    let received ← s.registry.received tag
    return .received received
  | .askScope scope => s.answer (return .scope (s.scope scope))
  | .newTable table => (return .done, s.keep table .empty)
  | .insertSymbol table name symbol =>
    let table₁ := (s.table table).insert name symbol
    (return .table table₁, s.keep table table₁)
  | .askSymbol table name =>
    s.answer (return .symbol? ((s.table table).get? name) (s.table table).size)
  | .sameTables first second =>
    s.answer (return .truth (decide (s.table first = s.table second)))

end Session

end StaticCheck
