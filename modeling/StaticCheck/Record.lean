import StaticCheck.LocalTable
import StaticCheck.Program
import StaticCheck.Text.Quoted

/-!
# Log records

Reading and checking a program leaves a trail of records on three levels. A
reader of the log sees the records of a level and of all levels above it:
`Level.shows`.

Tables are written with quoted names in braces; names that a record is about are
written as they are.
-/

namespace StaticCheck

open Text (quoted)

/-- The levels of records, from the rarest to the most frequent. -/
inductive Level where
  | info
  | debug
  | trace
  deriving DecidableEq

namespace Level

/-- The word for the level. -/
def name : Level → String
  | info => "INFO"
  | debug => "DEBUG"
  | trace => "TRACE"

/-- Whether a log that goes down to `threshold` has the records of `level`. -/
def shows : (threshold level : Level) → Bool
  | _, info => true
  | info, debug => false
  | debug, debug => true
  | trace, debug => true
  | info, trace => false
  | debug, trace => false
  | trace, trace => true

end Level

/-- A step worth noting. -/
inductive Record where
  /-- The analysis of a program with this many items begins. -/
  | analyzing (items : Nat)
  /-- The analysis ends well, with this many globals and signatures. -/
  | finished (globals signatures : Nat)
  /-- All globals are declared. -/
  | globals (table : Table VarTy)
  /-- All signatures are declared. -/
  | signatures (names : List String)
  /-- The local names of a routine are collected. -/
  | symbols (kind : RoutineKind) (routine : String) (table : LocalTable)
  /-- A global is declared. -/
  | declaringGlobal (name : String) (ty : VarTy)
  /-- A signature is declared. -/
  | declaringSignature (name : String) (returnTy : Ty)
  /-- A variable is looked up, in the body of `owner` or outside of all routines. -/
  | resolving (name : String) (owner : Option String)
  /-- The types of an assignment are compared. -/
  | assignment (target : String) (expected : Ty) (received : Received)
  /-- A callee is looked up. -/
  | calling (callee : String)
  /-- The header of a routine is read from its node. -/
  | lowered (kind : RoutineKind) (routine : String) (parameters : Nat)
  deriving DecidableEq

namespace Record

/-- The level of a record. -/
def level : Record → Level
  | analyzing _ | finished _ _ => .info
  | globals _ | signatures _ | symbols _ _ _ => .debug
  | declaringGlobal _ _ | declaringSignature _ _ | resolving _ _ | assignment _ _ _
  | calling _ | lowered _ _ _ => .trace

/-- The items with a comma and a space between them. -/
def separated (items : List String) : String :=
  String.intercalate ", " items

/-- Entries of a table in braces, each by its quoted name and the text of its value. -/
def braced {V : Type} (text : V → String) (table : Table V) : String :=
  "\x7b" ++ separated (table.entries.map fun e => quoted e.1 ++ ": " ++ text e.2) ++ "\x7d"

/-- The text of a local symbol, field by field. -/
def symbolText (symbol : LocalSymbol) : String :=
  "LocalSymbol \x7b ty: " ++ symbol.ty.name ++ ", kind: " ++ symbol.kind.name ++ " \x7d"

/-- The text of the owner of a body, quoted if there is one. -/
def ownerText : Option String → String
  | none => "None"
  | some owner => "Some(" ++ quoted owner ++ ")"

/-- The kind of the node that holds a routine. -/
def nodeKindText : RoutineKind → String
  | .function => "FunctionDef"
  | .procedure => "ProcedureDef"

/-- The text of a record. -/
def message : Record → String
  | analyzing items => "analyzing program (" ++ toString items ++ " top-level items)"
  | finished g s =>
    "analysis finished: " ++ toString g ++ " globals, " ++ toString s ++ " signatures"
  | globals table => "global variables: " ++ braced VarTy.name table
  | signatures names => "signatures: [" ++ separated (names.map quoted) ++ "]"
  | symbols kind routine table =>
    "symbols for " ++ kind.name ++ " " ++ routine ++ ": LocalTable \x7b symbols: " ++
      braced symbolText table ++ " \x7d"
  | declaringGlobal name ty => "declaring global " ++ name ++ ": " ++ ty.name
  | declaringSignature name returnTy =>
    "declaring signature " ++ name ++ " -> " ++ returnTy.name
  | resolving name owner => "resolving " ++ name ++ " in " ++ ownerText owner
  | assignment target expected received =>
    "assignment " ++ target ++ ": " ++ expected.name ++ " := " ++ received.text
  | calling callee => "calling " ++ callee
  | lowered kind routine parameters =>
    "lowered " ++ nodeKindText kind ++ " " ++ routine ++ " (" ++ toString parameters ++
      " parameters)"

end Record

end StaticCheck
