import StaticCheck.Violation

/-!
# Rejections

A syntax tree is rejected either because it is not the tree of a program
(`Malformation`) or because its program breaks a rule (`Violation`). Either
cause has a code, a message and, where one helps, a tip.
-/

namespace StaticCheck

open Text (quoted)

/-- A reason why a syntax tree is not the tree of a program. -/
inductive Malformation where
  /-- A node of this kind lacks an attribute that it needs. -/
  | missingAttribute (kind key : String)
  /-- A name stands for no type. -/
  | unknownType (name : String)
  /-- A variable or parameter is declared with the type of procedures. -/
  | variableOfTypeNone (name : String)
  /-- A second main procedure. -/
  | duplicateMain
  /-- A node of the kind `found` stands where something else has to. -/
  | unexpectedNode (expected found : String)
  deriving DecidableEq

namespace Malformation

/-- What is wrong with the tree. -/
def message : Malformation → String
  | missingAttribute kind key => kind ++ " node is missing attribute " ++ quoted key
  | unknownType name => "unknown type " ++ quoted name ++ " found"
  | variableOfTypeNone name => "variable " ++ quoted name ++ " cannot have type None"
  | duplicateMain => "more than one main procedure"
  | unexpectedNode expected found =>
    "unexpected node: expected " ++ expected ++ ", found " ++ found

/-- What to do about it, if the cause is a type. -/
def tip? : Malformation → Option String
  | unknownType name =>
    some ("`" ++ name ++ "` is not one of Integer, String, Boolean or Float")
  | variableOfTypeNone name => some ("Give `" ++ name ++ "` a concrete type")
  | missingAttribute _ _ | duplicateMain | unexpectedNode _ _ => none

end Malformation

/-- Why a syntax tree is rejected. -/
inductive Rejection where
  | malformed (cause : Malformation)
  | violation (cause : Violation)
  deriving DecidableEq

namespace Rejection

/-- The name of the broken rule; all malformed trees have one name. -/
def code : Rejection → String
  | malformed _ => "MalformedTree"
  | violation cause => cause.code

/-- What happened. -/
def message : Rejection → String
  | malformed cause => cause.message
  | violation cause => cause.message

/-- What to do about it; every violation has a tip. -/
def tip? : Rejection → Option String
  | malformed cause => cause.tip?
  | violation cause => some cause.tip

end Rejection

end StaticCheck
