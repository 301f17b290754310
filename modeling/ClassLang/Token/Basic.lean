import ClassLang.Token.Kind

/-!
# Tokens

A token is a kind together with the characters it was written with.
-/

namespace ClassLang

/-- A kind of token and the text that stands for it. -/
structure Token where
  kind : Kind
  content : String
  deriving DecidableEq, Repr

namespace Token

/-- The token of a keyword. -/
def keyword (k : Keyword) : Token := ⟨k, k.text⟩

/-- The token of a symbol. -/
def symbol (s : Symbol) : Token := ⟨s, s.text⟩

/-- The token of a name. -/
def identifier (name : String) : Token := ⟨.identifier, name⟩

/-- A token as a line of a listing shows it, its content as it was written. -/
def display (t : Token) : String :=
  "Token(" ++ t.kind.name ++ ", '" ++ t.content ++ "')"

end Token

end ClassLang
