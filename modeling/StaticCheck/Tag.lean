import StaticCheck.Ty

/-!
# Tags and what they stand for

The reader of a program text puts a tag on each expression, and the checker goes
by the tag alone. A tag is one of three types, the mark of a variable, the mark
of a call with its callee, or any other text, which is kept as it is.

With the known signatures at hand a tag resolves to a `Received`: what an
assignment would receive. The mark of a variable is not resolved any further, so
it fits no declared type.
-/

namespace StaticCheck

/-- The label on an expression. -/
inductive Tag where
  | integer
  | string
  | boolean
  | var
  | functionCall (callee : String)
  | other (raw : String)
  deriving DecidableEq

namespace Tag

/-- The tag called `name` on an expression that is a call of `callee?`, or no call. -/
def ofName (name : String) (callee? : Option String) : Tag :=
  match name, callee? with
  | "Integer", _ => integer
  | "String", _ => string
  | "Boolean", _ => boolean
  | "Variable", _ => var
  | "FunctionCall", some callee => functionCall callee
  | raw, _ => other raw

/-- The tag of an expression without a label. -/
def unlabelled : Tag :=
  other "Unknown"

/-- The text of a tag; a call shows its callee. -/
def text : Tag → String
  | integer => "Integer"
  | string => "String"
  | boolean => "Boolean"
  | var => "Variable"
  | functionCall callee => "FunctionCall(" ++ callee ++ ")"
  | other raw => raw

end Tag

/-- What a tag resolves to. -/
inductive Received where
  | typed (ty : Ty)
  | var
  | unknown
  deriving DecidableEq

namespace Received

/-- Whether a target of type `declared` may receive it: only if it has exactly this type. -/
def fits (declared : Ty) : Received → Bool
  | typed ty => decide (ty = declared)
  | var => false
  | unknown => false

/-- The text of what is received, by the name of its type where it has one. -/
def text : Received → String
  | typed ty => ty.name
  | var => "Variable"
  | unknown => "Unknown"

@[simp]
theorem fits_iff {received : Received} {declared : Ty} :
    received.fits declared = true ↔ received = typed declared := by
  cases received with
  | typed ty => simp only [fits, decide_eq_true_eq, typed.injEq]
  | var => simp only [fits, Bool.false_eq_true, reduceCtorEq]
  | unknown => simp only [fits, Bool.false_eq_true, reduceCtorEq]

end Received

end StaticCheck
