import StaticCheck.Tag
import StaticCheck.Text.Quoted

/-!
# Violations

The rules of a program that can be broken, each with the names that it concerns.
`code` names the rule, `message` words what happened and `tip` what to do about
it. Messages quote the names of variables and callees; the name of the routine
they are in stands in front as it is.
-/

namespace StaticCheck

open Text (quoted)

/-- A rule that a program breaks. -/
inductive Violation where
  /-- No item is a main procedure. -/
  | mainMissing
  /-- A global takes a name that a global or a routine has. -/
  | duplicateGlobal (name : String)
  /-- A routine takes the name of a global. -/
  | routineTakesGlobal (name : String)
  /-- A routine takes the name of another routine, built-in ones included. -/
  | duplicateRoutine (name : String)
  /-- A parameter takes the name of a global. -/
  | parameterTakesGlobal (routine name : String)
  /-- Two parameters of a routine have the same name. -/
  | duplicateParameter (routine name : String)
  /-- A local variable takes the name of a global. -/
  | localTakesGlobal (routine name : String)
  /-- A local variable takes the name of a parameter or of another local variable. -/
  | duplicateLocal (routine name : String)
  /-- The target of an assignment is not known where it stands. -/
  | undeclaredVariable (name : String)
  /-- A call names no known routine. -/
  | undefinedCallee (name : String)
  /-- A routine without a value stands where its value is assigned. -/
  | procedureAsValue (name : String)
  /-- An assignment receives another type than its target has. -/
  | typeMismatch (target : String) (expected : Ty) (received : Received)
  deriving DecidableEq

namespace Violation

/-- The name of the broken rule. -/
def code : Violation → String
  | mainMissing => "MainProcMissing"
  | duplicateGlobal _ => "DuplicateGlobal"
  | routineTakesGlobal _ => "FunctionNameGlobalConflict"
  | duplicateRoutine _ => "DuplicateFunction"
  | parameterTakesGlobal _ _ => "ParamGlobalConflict"
  | duplicateParameter _ _ => "DuplicateParam"
  | localTakesGlobal _ _ => "LocalGlobalConflict"
  | duplicateLocal _ _ => "DuplicateLocal"
  | undeclaredVariable _ => "UndeclaredVariable"
  | undefinedCallee _ => "UndefinedCallee"
  | procedureAsValue _ => "ProcedureUsedAsExpression"
  | typeMismatch _ _ _ => "TypeMismatch"

/-- What happened. -/
def message : Violation → String
  | mainMissing => "main procedure not found"
  | duplicateGlobal name => "global variable " ++ quoted name ++ " already declared"
  | routineTakesGlobal name =>
    quoted name ++ " conflicts with an already declared global variable"
  | duplicateRoutine name => "function or procedure " ++ quoted name ++ " already declared"
  | parameterTakesGlobal routine name =>
    routine ++ ": parameter " ++ quoted name ++ " conflicts with a global variable"
  | duplicateParameter routine name => routine ++ ": duplicate parameter " ++ quoted name
  | localTakesGlobal routine name =>
    routine ++ ": local variable " ++ quoted name ++ " conflicts with a global variable"
  | duplicateLocal routine name =>
    routine ++ ": variable " ++ quoted name ++ " already declared"
  | undeclaredVariable name =>
    "variable " ++ quoted name ++ " not declared in the current scope"
  | undefinedCallee name => "function or procedure " ++ quoted name ++ " is not defined"
  | procedureAsValue name => "procedure " ++ quoted name ++ " used in expression context"
  | typeMismatch target expected received =>
    "type mismatch in assignment to " ++ quoted target ++ ": expected " ++ expected.name ++
      ", received " ++ received.text

/-- What to do about it. -/
def tip : Violation → String
  | mainMissing => "Every program needs a main procedure"
  | duplicateGlobal name => "Global variable `" ++ name ++ "` is declared twice"
  | routineTakesGlobal name =>
    "Rename `" ++ name ++ "`, a global variable already uses that name"
  | duplicateRoutine name => "`" ++ name ++ "` is already defined (built-ins count too)"
  | parameterTakesGlobal _ name | localTakesGlobal _ name =>
    "`" ++ name ++ "` would shadow a global variable, pick another name"
  | duplicateParameter _ name | duplicateLocal _ name =>
    "Parameters and local variables share one namespace, `" ++ name ++ "` appears twice"
  | undeclaredVariable name => "Variable `" ++ name ++ "` not declared"
  | undefinedCallee name => "No function or procedure named `" ++ name ++ "`"
  | procedureAsValue name => "`" ++ name ++ "` is a procedure and returns no value"
  | typeMismatch _ expected received =>
    "Expected type `" ++ expected.name ++ "`, received `" ++ received.text ++ "`"

end Violation

end StaticCheck
