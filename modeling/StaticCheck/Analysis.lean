import StaticCheck.Body
import StaticCheck.Registry.Edit

/-!
# The analysis of a program

A program is analysed on the initial registry: the globals are declared, then
the items are checked in the order of the text, and the answer is the registry
with all names. The first violation ends the analysis.

In hoisting mode all signatures are declared before the items are checked, so a
body may call a routine that is defined further down. In single-pass mode a
signature is declared when its definition is reached.
-/

namespace StaticCheck

/-- When the signatures of routines are declared. -/
inductive Mode where
  /-- All of them before any body is checked. -/
  | hoisting
  /-- Each when its routine is reached. -/
  | singlePass
  deriving DecidableEq

/-- Signatures are hoisted unless told otherwise. -/
instance : Inhabited Mode := ⟨.hoisting⟩

/-- Declares the signatures of all routines, if that is not left to their definitions. -/
def hoist (mode : Mode) (routines : List Routine) : Edit Unit :=
  match mode with
  | .hoisting => .collectSignatures routines
  | .singlePass => pure ()

/-- Collects the local names of a routine, and declares its signature if that is not yet done. -/
def enter (mode : Mode) (h : Header) : Edit LocalTable :=
  match mode with
  | .hoisting => .collectLocals h
  | .singlePass => .collectSignatureAndLocals h

/-- Checks a body of the program, and stores the local names of a routine after its body. -/
def checkItem (mode : Mode) : Item → Edit Unit
  | .main main => .read fun r => r.checkBody .outside main.body
  | .routine routine => do
    let table ← enter mode routine.toHeader
    .read fun r => r.checkBody (.within routine.name table) routine.body
    .insertLocals routine.name table

namespace Program

/-- The main procedure that a program must have. -/
def requireMain (p : Program) : Logged Violation MainProc :=
  match p.main? with
  | some main => return main
  | none => .fail .mainMissing

/-- The analysis as an edit of a registry that knows no name of the program yet. -/
def analysis (p : Program) (mode : Mode) : Edit Unit := do
  .read fun _ => .emit (.analyzing p.items.length)
  let main ← .read fun _ => p.requireMain
  .collectGlobals main.declarations
  hoist mode p.routines
  p.items.forM (checkItem mode)
  .read fun r => .emit (.finished r.globals.size r.signatures.size)

/-- The registry of a program that breaks no rule. -/
def analyze (p : Program) (mode : Mode) : Logged Violation Registry :=
  match (p.analysis mode).run .initial with
  | (outcome, r) => do
    outcome
    return r

end Program

end StaticCheck
