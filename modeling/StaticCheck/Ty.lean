/-!
# Types

A variable or parameter has one of four types (`VarTy`). The type of what a
routine answers is one of these or, for a procedure, `Ty.none`.

Types are written by name in syntax trees. `Ty.ofName?` reads a name;
`none` has two of them.
-/

namespace StaticCheck

/-- The types that a variable or parameter may have. -/
inductive VarTy where
  | integer
  | string
  | boolean
  | float
  deriving DecidableEq

/-- The types that a routine may return: `none` is that of procedures. -/
inductive Ty where
  | var (ty : VarTy)
  | none
  deriving DecidableEq

instance : Coe VarTy Ty := ⟨Ty.var⟩

/-- The name of the type, as messages and records write it. -/
def VarTy.name : VarTy → String
  | integer => "Integer"
  | string => "String"
  | boolean => "Boolean"
  | float => "Float"

/-- The name of the type, as messages and records write it. -/
def Ty.name : Ty → String
  | var ty => ty.name
  | none => "None"

/-- The names of types that a syntax tree may use, in their order. -/
def Ty.names : List (String × Ty) :=
  [("Boolean", VarTy.boolean), ("Float", VarTy.float), ("Integer", VarTy.integer),
    ("NULL", none), ("None", none), ("String", VarTy.string)]

/-- The type that a syntax tree calls `name`. -/
def Ty.ofName? (name : String) : Option Ty :=
  names.lookup name

/-- The type as one of a variable, if a variable may have it. -/
def Ty.var? : Ty → Option VarTy
  | var ty => some ty
  | none => Option.none

/-- The place of the type in the order integer, string, boolean, float. -/
def VarTy.rank : VarTy → Nat
  | integer => 0
  | string => 1
  | boolean => 2
  | float => 3

/-- The place of the type in the order of variable types, with `none` behind them. -/
def Ty.rank : Ty → Nat
  | var ty => ty.rank
  | none => 4

/-- Compares two types by their ranks. -/
def VarTy.order (a b : VarTy) : Ordering :=
  compareOfLessAndEq a.rank b.rank

/-- Compares two types by their ranks. -/
def Ty.order (a b : Ty) : Ordering :=
  compareOfLessAndEq a.rank b.rank

/-- Every type is read back from the name that it is written by. -/
@[simp]
theorem Ty.ofName?_name (ty : Ty) : ofName? ty.name = some ty := by
  cases ty with
  | var ty => cases ty <;> rfl
  | none => rfl

end StaticCheck
