import ClassLang.Grammar.Statement

/-!
# The grammar of classes

A member is told by the two tokens after its modifiers, which are both looked at whatever the first
is.
-/

namespace ClassLang.Grammar

/-- Parameters with commas between them, and the `)` after the last. -/
def parameters : Parser (List Parameter) := do
  let type ← name "parameter type"
  let ts ← typeArgs
  let n ← name "parameter name"
  if ← eat Symbol.comma then
    return ⟨type, ts, n⟩ :: (← call .parameters)
  else
    symbol .rightParen "to close the parameters"
    return [⟨type, ts, n⟩]

/-- Parameters between parentheses, maybe none. -/
def parameterList : Parser (List Parameter) := do
  symbol .leftParen "to open the parameters"
  if ← eat Symbol.rightParen then return []
  else call .parameters

/-- A constructor after its modifiers. -/
def constructor (ms : List Modifier) : Parser Constructor := do
  keyword .constructorKw "'constructor'"
  let ps ← parameterList
  return ⟨ms, ps, ← bracedBody⟩

/-- The name that an overloaded operator has as a function. -/
def overloadName : Option Kind → Option String
  | some (.symbol s) => s.overloadName?
  | _ => none

/-- The name of a function, or the operator it overloads. -/
def functionName : Parser String := do
  if ← eat Keyword.operatorKw then
    match overloadName (← look 0) with
    | some n =>
      skip
      return n
    | none => unexpected "an operator to overload"
  else
    name "function name"

/-- A function after its modifiers. -/
def function (ms : List Modifier) : Parser Function := do
  let type ← name "return type"
  keyword .funcKw "'func'"
  let n ← functionName
  let ps ← parameterList
  if ← eat Symbol.semicolon then return ⟨ms, type, n, ps, none⟩
  else return ⟨ms, type, n, ps, some (← bracedBody)⟩

/-- The class that another extends, if it extends one. -/
def parent : Parser (Option String) := do
  if ← eat Keyword.extendsKw then return some (← name "parent class name")
  else return none

/-- A class after its modifiers. -/
def classDeclaration (ms : List Modifier) : Parser Class := do
  keyword .classKw "'class'"
  let n ← name "class name"
  let ts ← typeArgs
  let p ← parent
  symbol .leftBrace "to open the class body"
  let members ← call .members
  symbol .rightBrace "to close the class body"
  return .ofMembers ms n ts p members

/-- Members as far as a `}`, which stays to be read. -/
def members : Parser (List Member) := do
  let ms ← call .modifiers
  let first ← look 0
  let second ← look 1
  match first, second with
  | some (.symbol .rightBrace), _ =>
    if ms.isEmpty then return []
    else unexpected "a class member"
  | some (.keyword .constructorKw), _ =>
    let c ← constructor ms
    return .constructor c :: (← call .members)
  | some (.keyword .classKw), _ =>
    let c ← classDeclaration ms
    return .nested c :: (← call .members)
  | some .identifier, some (.keyword .funcKw) =>
    let f ← function ms
    return .function f :: (← call .members)
  | some .identifier, _ =>
    let d ← declaration
    symbol .semicolon "after the variable declaration"
    return .field ⟨ms, d⟩ :: (← call .members)
  | _, _ => unexpected "a class member"

/-- A class with its modifiers. -/
def wholeClass : Parser Class := do
  classDeclaration (← call .modifiers)

end ClassLang.Grammar

namespace ClassLang

/-- How a rule is read. -/
def Rule.body : (r : Rule) → Parser r.Node
  | .modifiers => Grammar.modifiers
  | .typeNames => Grammar.typeNames
  | .parameters => Grammar.parameters
  | .expression => Grammar.expression
  | .memberAccess => Grammar.memberAccess
  | .arguments => Grammar.arguments
  | .conditions => Grammar.conditions
  | .statement => Grammar.statement
  | .statements => Grammar.statements
  | .ifChain => Grammar.ifChain
  | .cases => Grammar.cases
  | .caseBody => Grammar.caseBody
  | .members => Grammar.members

end ClassLang
