import StaticCheck.Stmt

/-!
# Programs

A program lists main procedures and routines in the order of the text. The
declarations of its first main procedure are the global variables
(`Program.main?`).

A routine is a header and a body. The header alone gives the routine's
signature (`Header.signature`) and the names that are known in its body. A
routine without a return type is a procedure; a function may be declared to
return `Ty.none`, and its signature is then that of a procedure.
-/

namespace StaticCheck

/-- A name declared with a type: a global, a parameter or a local. -/
structure Declaration where
  name : String
  ty : VarTy
  deriving DecidableEq

/-- What callers know of a routine. -/
structure Signature where
  name : String
  returnTy : Ty
  parameters : List (String × Ty)
  deriving DecidableEq

/-- Whether a call has no value. -/
def Signature.isProcedure (s : Signature) : Bool :=
  decide (s.returnTy = .none)

/-- Whether a routine states a return type. -/
inductive RoutineKind where
  | function
  | procedure
  deriving DecidableEq

/-- The word for the kind. -/
def RoutineKind.name : RoutineKind → String
  | function => "function"
  | procedure => "procedure"

/-- All of a routine but its body. -/
structure Header where
  name : String
  parameters : List Declaration
  returnTy : Option Ty
  locals : List Declaration
  deriving DecidableEq

namespace Header

/-- A routine that states no return type is a procedure. -/
def kind (h : Header) : RoutineKind :=
  match h.returnTy with
  | none => .procedure
  | some _ => .function

/-- The signature that the header declares. -/
def signature (h : Header) : Signature where
  name := h.name
  returnTy := h.returnTy.getD .none
  parameters := h.parameters.map fun p => (p.name, p.ty)

end Header

/-- A function or a procedure. -/
structure Routine extends Header where
  body : List Stmt
  deriving DecidableEq

/-- A main procedure; its declarations are global. -/
structure MainProc where
  declarations : List Declaration
  body : List Stmt
  deriving DecidableEq

/-- A part of a program. -/
inductive Item where
  | main (main : MainProc)
  | routine (routine : Routine)
  deriving DecidableEq

namespace Item

/-- The item as a main procedure. -/
def main? : Item → Option MainProc
  | main m => some m
  | routine _ => none

/-- The item as a routine. -/
def routine? : Item → Option Routine
  | main _ => none
  | routine r => some r

end Item

/-- The items of a program in the order of the text. -/
structure Program where
  items : List Item
  deriving DecidableEq

namespace Program

/-- The first main procedure, if there is one. -/
def main? (p : Program) : Option MainProc :=
  p.items.findSome? Item.main?

/-- The routines in the order of the text. -/
def routines (p : Program) : List Routine :=
  p.items.filterMap Item.routine?

end Program

end StaticCheck
