import ClassLang.Syntax.Class

/-!
# The rules of the grammar

The parts of the grammar that contain one another, each named for what it stands for. `Rule.Node`
is the type of the trees a rule yields.
-/

namespace ClassLang

/-- A part of the grammar that other parts, or it itself, refer to. -/
inductive Rule where
  | modifiers
  | typeNames
  | parameters
  | expression
  | memberAccess
  | arguments
  | conditions
  | statement
  | statements
  | ifChain
  | cases
  | caseBody
  | members
  deriving DecidableEq, Repr

/-- What a rule yields. -/
abbrev Rule.Node : Rule → Type
  | modifiers => List Modifier
  | typeNames => List String
  | parameters => List Parameter
  | expression => Expression
  | memberAccess => MemberAccess
  | arguments => List Expression
  | conditions => Conditions
  | statement => Statement
  | statements => List Statement
  | ifChain => If
  | cases => Cases
  | caseBody => List Statement
  | members => List Member

end ClassLang
