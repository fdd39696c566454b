import StaticCheck.LocalTable

/-!
# Scopes

A statement stands either outside of all routines, where globals alone are
known, or in the body of a routine, whose local names come first.
-/

namespace StaticCheck

/-- Where a statement stands. -/
inductive Scope where
  | outside
  | within (owner : String) (table : LocalTable)
  deriving DecidableEq

namespace Scope

/-- The routine whose body it is. -/
def owner? : Scope → Option String
  | outside => none
  | within owner _ => some owner

/-- The local names that are known there. -/
def table? : Scope → Option LocalTable
  | outside => none
  | within _ table => some table

/-- The type of a local name. -/
def ty? (scope : Scope) (name : String) : Option VarTy :=
  scope.table?.bind (·.ty? name)

end Scope

end StaticCheck
