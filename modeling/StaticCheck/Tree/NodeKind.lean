/-!
# Kinds of nodes

The kinds of nodes that the grammar gives a syntax tree. Each kind has a name, by
which trees and messages refer to it.
-/

namespace StaticCheck

/-- What a node of a syntax tree stands for in the grammar. -/
inductive NodeKind where
  | program
  | mainProc
  | functionDef
  | procedureDef
  | param
  | vartype
  | declaration
  | stmtList
  | stmt
  | assignment
  | ifStmt
  | whileStmt
  | functionCall
  | id
  | arrayElement
  | expr
  | arithmExp
  | arithmExpTail
  | term
  | termTail
  | unary
  | elem
  | operand
  | boolExp
  | boolExpTail
  | boolTerm
  | boolTermTail
  | negation
  | boolElem
  | comparison
  | comparisonOperator
  deriving DecidableEq

namespace NodeKind

/-- All kinds, in the order of the grammar. -/
def all : List NodeKind :=
  [.program, .mainProc, .functionDef, .procedureDef, .param, .vartype, .declaration, .stmtList,
    .stmt, .assignment, .ifStmt, .whileStmt, .functionCall, .id, .arrayElement, .expr,
    .arithmExp, .arithmExpTail, .term, .termTail, .unary, .elem, .operand, .boolExp,
    .boolExpTail, .boolTerm, .boolTermTail, .negation, .boolElem, .comparison,
    .comparisonOperator]

/-- The name of a kind. -/
def name : NodeKind → String
  | program => "Program"
  | mainProc => "MainProc"
  | functionDef => "FunctionDef"
  | procedureDef => "ProcedureDef"
  | param => "Param"
  | vartype => "Vartype"
  | declaration => "Declaration"
  | stmtList => "StmtList"
  | stmt => "Stmt"
  | assignment => "Assignment"
  | ifStmt => "IfStmt"
  | whileStmt => "WhileStmt"
  | functionCall => "FunctionCall"
  | id => "Id"
  | arrayElement => "ArrayElement"
  | expr => "Expr"
  | arithmExp => "ArithmExp"
  | arithmExpTail => "ArithmExpTail"
  | term => "Term"
  | termTail => "TermTail"
  | unary => "Unary"
  | elem => "Elem"
  | operand => "Operand"
  | boolExp => "BoolExp"
  | boolExpTail => "BoolExpTail"
  | boolTerm => "BoolTerm"
  | boolTermTail => "BoolTermTail"
  | negation => "Negation"
  | boolElem => "BoolElem"
  | comparison => "Comparison"
  | comparisonOperator => "ComparisonOperator"

/-- The kind called `name`. -/
def ofName? (name : String) : Option NodeKind :=
  all.find? fun kind => decide (kind.name = name)

@[simp]
theorem mem_all (kind : NodeKind) : kind ∈ all := by
  cases kind <;> decide

/-- Every kind is read back from its name. -/
@[simp]
theorem ofName?_name (kind : NodeKind) : ofName? kind.name = some kind := by
  cases kind <;> decide

end NodeKind

end StaticCheck
