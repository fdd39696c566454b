import StaticCheck.Analysis
import StaticCheck.Tree.Program

/-!
# Checking a syntax tree

A tree is accepted if it is the tree of a program that breaks no rule, and the
answer is the registry of that program.
-/

namespace StaticCheck

/-- The registry of the program of a tree. -/
def Node.check (root : Node) (mode : Mode) : Logged Rejection Registry := do
  let program ← root.toProgram.mapError .malformed
  (program.analyze mode).mapError .violation

end StaticCheck
