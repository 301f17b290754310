import ClassLang.Grammar.Expression

/-!
# The grammar of statements

The first token tells control statements apart. Of the others, a declaration is told by two names in
a row, or a name and a `<`; what begins with an access is an update unless it ends there.
-/

namespace ClassLang.Grammar

/-- A type, a name and maybe a first value. -/
def declaration : Parser Declaration := do
  let type ← name "variable type"
  let ts ← typeArgs
  let n ← name "variable name"
  if ← eat Symbol.set then
    return ⟨type, ts, n, some (← call .expression)⟩
  else
    return ⟨type, ts, n, none⟩

/-- Statements as far as a `}`, which stays to be read. -/
def statements : Parser (List Statement) := do
  match ← look 0 with
  | some (.symbol .rightBrace) => return []
  | none => unexpected (wanted .rightBrace "to close the body")
  | some _ =>
    let s ← call .statement
    return s :: (← call .statements)

/-- Statements between braces. -/
def bracedBody : Parser (List Statement) := do
  symbol .leftBrace "to open the body"
  let ss ← call .statements
  symbol .rightBrace "to close the body"
  return ss

/-- What a control statement governs. -/
def block : Parser Block := do
  if (← look 0) = some Symbol.leftBrace then return .body (← bracedBody)
  else return .statement (← call .statement)

/-- A branch from its `if` on, and what follows it. -/
def ifChain : Parser If := do
  keyword .ifKw "'if'"
  let c ← eat Keyword.constexprKw
  let k ← groupedConditions
  let b ← block
  if ← eat Keyword.elseKw then
    if (← look 0) = some Keyword.ifKw then return .orIf c k b (← call .ifChain)
    else return .orElse c k b (← block)
  else
    return .only c k b

/-- A loop over conditions. -/
def whileLoop : Parser Statement := do
  keyword .whileKw "'while'"
  let k ← groupedConditions
  return .whileLoop k (← block)

/-- A loop with a variable, conditions and an update. -/
def forLoop : Parser Statement := do
  keyword .forKw "'for'"
  symbol .leftParen "after 'for'"
  let d ← declaration
  symbol .semicolon "after the loop variable"
  let k ← call .conditions
  symbol .semicolon "after the loop conditions"
  let u ← update
  symbol .rightParen "to close the loop header"
  return .forLoop d k u (← block)

/-- A loop over what an access yields. -/
def foreachLoop : Parser Statement := do
  keyword .foreachKw "'foreach'"
  symbol .leftParen "after 'foreach'"
  let d ← declaration
  keyword .inKw "'in'"
  let m ← call .memberAccess
  symbol .rightParen "to close the loop header"
  return .foreachLoop d m (← block)

/-- Whether a token of this kind, or the end of the input, can follow the last step of a case. -/
def endsCase : Option Kind → Bool
  | none | some (.keyword .caseKw) | some (.keyword .defaultKw) | some (.symbol .rightBrace) => true
  | some _ => false

/-- Statements as far as the next case or the `}`; a `break` or a `return` is the last of them. -/
def caseBody : Parser (List Statement) := do
  match ← look 0 with
  | none => unexpected (wanted .rightBrace "to close the switch")
  | some k =>
    if endsCase (some k) then return []
    else
      let s ← call .statement
      if k = Keyword.breakKw ∨ k = Keyword.returnKw then
        if endsCase (← look 0) then return [s]
        else unexpected "the next case after the end of a case"
      else
        return s :: (← call .caseBody)

/-- The cases of a `switch` as far as its `}`, which has to follow a default case. -/
def cases : Parser Cases := do
  match ← look 0 with
  | some (.keyword .caseKw) =>
    skip
    let e ← call .expression
    symbol .colon "after the case value"
    let ss ← call .caseBody
    if (← look 0) = some Symbol.rightBrace then return .last e ss
    else return .next e ss (← call .cases)
  | some (.keyword .defaultKw) =>
    skip
    symbol .colon "after 'default'"
    let ss ← call .caseBody
    if (← look 0) = some Symbol.rightBrace then return .default ss
    else .fail .defaultNotLast
  | _ => unexpected "'case' or 'default'"

/-- A choice between cases. -/
def switch : Parser Statement := do
  keyword .switchKw "'switch'"
  symbol .leftParen "after 'switch'"
  let e ← call .expression
  symbol .rightParen "after the switch value"
  symbol .leftBrace "to open the switch"
  let cs ← call .cases
  symbol .rightBrace "to close the switch"
  return .switch e cs

/-- The end of a loop or a case. -/
def breakOut : Parser Statement := do
  keyword .breakKw "'break'"
  symbol .semicolon "after 'break'"
  return .breakOut

/-- The end of a function, with a value or without. -/
def returnValue : Parser Statement := do
  keyword .returnKw "'return'"
  if ← eat Symbol.semicolon then return .returnValue none
  else
    let e ← call .expression
    symbol .semicolon "after the return value"
    return .returnValue (some e)

/-- A text without the double quotes at its two ends. -/
def unquote (quoted : String) : String :=
  let opened := quoted.toList.dropWhile (· = '"')
  String.ofList (opened.reverse.dropWhile (· = '"')).reverse

theorem dropWhile_of_quote_not_mem {cs : List Char} (h : '"' ∉ cs) :
    cs.dropWhile (· = '"') = cs := by
  cases cs with
  | nil => rfl
  | cons c cs =>
    have hc : c ≠ '"' := (List.ne_of_not_mem_cons h).symm
    exact List.dropWhile_cons_of_neg (by simpa using hc)

/-- What stands between the marks of a quote has none at its ends, so only the marks go. -/
theorem unquote_quote {body : List Char} {c : String} (hbody : '"' ∉ body)
    (h : c.toList = '"' :: body ++ ['"']) : unquote c = String.ofList body := by
  have hopened : c.toList.dropWhile (· = '"') = if body.isEmpty then [] else body ++ ['"'] := by
    rw [h, List.cons_append, List.dropWhile_cons_of_pos (by decide), List.dropWhile_append,
      dropWhile_of_quote_not_mem hbody]
    rfl
  rw [unquote, hopened]
  cases body with
  | nil => rfl
  | cons a cs =>
    have hclosed : (a :: cs ++ ['"']).reverse.dropWhile (· = '"') = (a :: cs).reverse := by
      rw [List.reverse_append, List.reverse_singleton, List.singleton_append,
        List.dropWhile_cons_of_pos (by decide),
        dropWhile_of_quote_not_mem (mt List.mem_reverse.1 hbody)]
    simp only [List.isEmpty_cons, Bool.false_eq_true, if_false, hclosed, List.reverse_reverse]

/-- Quoted assembly between braces. -/
def asm : Parser Statement := do
  keyword .asmKw "'asm'"
  symbol .leftBrace "after 'asm'"
  let text ← expect .quote "quoted assembly"
  symbol .rightBrace "to close the asm block"
  return .asm (unquote text)

/-- Whether a declaration comes next. -/
def declares : Parser Bool := do
  if (← look 0) = some .identifier then
    let second ← look 1
    return second = some .identifier || second = some Symbol.less
  else
    return false

/-- A declaration, an update or an access. -/
def simpleStatement : Parser Statement := do
  let ms ← call .modifiers
  if ← declares then
    let d ← declaration
    symbol .semicolon "after the variable declaration"
    return .declare ⟨ms, d⟩
  else if ms.isEmpty then
    let m ← call .memberAccess
    if ← eat Symbol.semicolon then return .access m
    else
      let u ← updateOf m
      symbol .semicolon "after the update"
      return .update u
  else
    unexpected "a variable declaration after the modifiers"

/-- A statement of any form. -/
def statement : Parser Statement := do
  match ← look 0 with
  | none => unexpected "a statement"
  | some (.keyword .ifKw) => return .branch (← call .ifChain)
  | some (.keyword .whileKw) => whileLoop
  | some (.keyword .forKw) => forLoop
  | some (.keyword .foreachKw) => foreachLoop
  | some (.keyword .switchKw) => switch
  | some (.keyword .breakKw) => breakOut
  | some (.keyword .returnKw) => returnValue
  | some (.keyword .asmKw) => asm
  | some (.symbol .increment) | some (.symbol .decrement) =>
    let u ← update
    symbol .semicolon "after the update"
    return .update u
  | some _ => simpleStatement

end ClassLang.Grammar
