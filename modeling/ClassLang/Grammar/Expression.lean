import ClassLang.Grammar.Basic

/-!
# The grammar of expressions and conditions

A `(` begins a group of operands in an expression and a group of clauses in a condition. An access
is told by the next two tokens, which are both looked at whatever the first is.
-/

namespace ClassLang.Grammar

/-- One operand. -/
def operand : Parser Operand := do
  match ← look 0 with
  | some (.symbol .leftParen) =>
    skip
    let e ← call .expression
    symbol .rightParen "to close the expression"
    return .group e
  | some .value => return .value (← expect .value "value")
  | _ => return .access (← call .memberAccess)

/-- Operands joined by operations. -/
def expression : Parser Expression := do
  let a ← operand
  match (← look 0).bind Operation.ofKind? with
  | some o =>
    skip
    return .chain a o (← call .expression)
  | none => return .single a

/-- Expressions with commas between them, and the `)` after the last. -/
def arguments : Parser (List Expression) := do
  let e ← call .expression
  if ← eat Symbol.comma then
    return e :: (← call .arguments)
  else
    symbol .rightParen "to close the arguments"
    return [e]

/-- Arguments between parentheses, maybe none. -/
def argumentList : Parser (List Expression) := do
  symbol .leftParen "to open the arguments"
  if ← eat Symbol.rightParen then return []
  else call .arguments

/-- A variable, a call or a new object. -/
def access : Parser Access := do
  let first ← look 0
  let second ← look 1
  match first, second with
  | some (.keyword .newKw), _ =>
    skip
    let n ← name "class name after 'new'"
    let ts ← typeArgs
    return .new n ts (← argumentList)
  | some .identifier, some (.symbol .leftParen) =>
    let n ← name "function name"
    return .call n (← argumentList)
  | some .identifier, _ => return .variable (← name "variable name")
  | _, _ => unexpected "a variable, call or 'new'"

/-- Accesses joined by dots. -/
def memberAccess : Parser MemberAccess := do
  let a ← access
  if ← eat Symbol.dot then
    return .dot a (← call .memberAccess)
  else
    return .single a

/-- Conditions between parentheses. -/
def groupedConditions : Parser Conditions := do
  symbol .leftParen "to open the conditions"
  let k ← call .conditions
  symbol .rightParen "to close the conditions"
  return k

/-- Two expressions with a comparison between them. -/
def comparison : Parser Clause := do
  let l ← call .expression
  match (← look 0).bind Comparison.ofKind? with
  | some c =>
    skip
    return .comparison l c (← call .expression)
  | none => unexpected "a comparison"

/-- A comparison or a group of clauses. -/
def clause : Parser Clause := do
  match ← look 0 with
  | some (.symbol .not) =>
    skip
    if (← look 0) = some Symbol.leftParen then
      return .group true (← groupedConditions)
    else
      unexpected (wanted .leftParen "after '!'")
  | some (.symbol .leftParen) => return .group false (← groupedConditions)
  | _ => comparison

/-- Clauses joined by `&&` and `||`. -/
def conditions : Parser Conditions := do
  let c ← clause
  match (← look 0).bind Logic.ofKind? with
  | some o =>
    skip
    return .chain c o (← call .conditions)
  | none => return .single c

/-- The rest of an update after its target: an assignment or a step. -/
def updateOf (target : MemberAccess) : Parser Update := do
  let k ← look 0
  match k.bind Assignment.ofKind?, k.bind Counting.ofKind? with
  | some a, _ =>
    skip
    return .assign target a (← call .expression)
  | none, some c =>
    skip
    return .count c .after target
  | none, none => unexpected "an assignment, '++' or '--'"

/-- An update; a step may come before its target. -/
def update : Parser Update := do
  match (← look 0).bind Counting.ofKind? with
  | some c =>
    skip
    return .count c .before (← call .memberAccess)
  | none => updateOf (← call .memberAccess)

end ClassLang.Grammar
