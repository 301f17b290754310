import ClassLang.Grammar.Parser

/-!
# Small parsers

The steps the grammar is written with, and the parts of it that refer to no others.
-/

namespace ClassLang.Grammar

/-- The kind of the token `n` places on, if there is one. -/
def look (n : Nat) : Parser (Option Kind) :=
  .look n .done

/-- Take a token that was looked at. -/
def skip : Parser Unit :=
  .skip (.done ())

/-- The content of the next token, which has to be of this kind. -/
def expect (kind : Kind) (what : String) : Parser String :=
  .expect kind what .done

/-- Take the next token and forget it; it has to be this keyword. -/
def keyword (k : Keyword) (what : String) : Parser Unit :=
  .expect k what fun _ => .done ()

/-- A symbol and what it is for, as an error shows what it expected. -/
def wanted (s : Symbol) (purpose : String) : String :=
  "'" ++ s.text ++ "' " ++ purpose

/-- Take the next token and forget it; it has to be this symbol. -/
def symbol (s : Symbol) (purpose : String) : Parser Unit :=
  .expect s (wanted s purpose) fun _ => .done ()

/-- The content of the next token, which has to be a name. -/
def name (what : String) : Parser String :=
  expect .identifier what

/-- Fail over the next token, leaving it. -/
def unexpected {α : Type} (what : String) : Parser α :=
  .unexpected what

/-- What a rule yields. -/
def call (r : Rule) : Parser r.Node :=
  .call r .done

/-- Take the next token if it is of this kind, and say whether it was. -/
def eat (kind : Kind) : Parser Bool := do
  if (← look 0) = some kind then
    skip
    return true
  else
    return false

/-- Fail unless all input has been taken. -/
def finish : Parser Unit := do
  match ← look 0 with
  | none => return ()
  | some _ => unexpected "end of input"

/-- Modifiers, as long as there are any. -/
def modifiers : Parser (List Modifier) := do
  match (← look 0).bind Modifier.ofKind? with
  | some m =>
    skip
    return m :: (← call .modifiers)
  | none => return []

/-- Names with commas between them, and the `>` after the last. -/
def typeNames : Parser (List String) := do
  let n ← name "type name"
  if ← eat Symbol.comma then
    return n :: (← call .typeNames)
  else
    symbol .greater "to close the typedef"
    return [n]

/-- The arguments of a type between `<` and `>`, if there is a `<`. -/
def typeArgs : Parser (List String) := do
  if ← eat Symbol.less then call .typeNames
  else return []

end ClassLang.Grammar
