import StaticCheck.Table
import StaticCheck.Ty

/-!
# The names known in one routine only

Parameters and local variables of a routine share one table: each name has a
type and is either a parameter or a variable.
-/

namespace StaticCheck

/-- How a local name was declared. -/
inductive LocalKind where
  | parameter
  | var
  deriving DecidableEq

/-- The word for the kind. -/
def LocalKind.name : LocalKind → String
  | parameter => "Parameter"
  | var => "Variable"

/-- What a local name stands for. -/
structure LocalSymbol where
  ty : VarTy
  kind : LocalKind
  deriving DecidableEq

/-- The parameters and local variables of a routine. -/
abbrev LocalTable := Table LocalSymbol

namespace LocalTable

/-- The type of a local name. -/
def ty? (table : LocalTable) (name : String) : Option VarTy :=
  (table.get? name).map LocalSymbol.ty

end LocalTable

end StaticCheck
