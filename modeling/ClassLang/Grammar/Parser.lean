import ClassLang.Grammar.Rule
import ClassLang.Token.Source

/-!
# Parsers as trees of decisions

A parser is written down as the decisions it takes: look at the kind of a token ahead, skip a token
or require one, call a rule, fail. It decides on nothing but the kinds of tokens and keeps nothing
but their contents. How it runs is said elsewhere.
-/

namespace ClassLang

/-- Why a parse fails. -/
inductive ParseError where
  /-- The input could not be read as far as was looked. -/
  | lexical (e : LexError)
  /-- Something else came than what was needed here, or nothing did. -/
  | expected (what : String) (found : Option String)
  /-- A case followed the default one. -/
  | defaultNotLast
  /-- The bound on the depth of the parse was too low. -/
  | exhausted
  deriving DecidableEq, Repr

namespace ParseError

/-- The wording of the error. -/
def message : ParseError → String
  | lexical e => e.message
  | expected what (some found) => "expected " ++ what ++ ", found '" ++ found ++ "'"
  | expected what none => "expected " ++ what ++ ", found end of input"
  | defaultNotLast => "'default' must be the last case in a switch"
  | exhausted => "the nesting is too deep"

end ParseError

/-- What to do next, up to a result. -/
inductive Parser (α : Type) where
  | done (result : α)
  /-- Go on by the kind of the token this many places on. -/
  | look (n : Nat) (next : Option Kind → Parser α)
  /-- Take a token that was looked at. -/
  | skip (next : Parser α)
  /-- Take a token, which has to be of this kind, and go on with its content. -/
  | expect (kind : Kind) (what : String) (next : String → Parser α)
  /-- Fail over the next token, leaving it. -/
  | unexpected (what : String)
  /-- Fail. -/
  | fail (e : ParseError)
  /-- Go on with what a rule yields. -/
  | call (r : Rule) (next : r.Node → Parser α)

namespace Parser

/-- Go on from a result with another parser. -/
def bind {α β : Type} : Parser α → (α → Parser β) → Parser β
  | done a, f => f a
  | look n next, f => look n fun k => (next k).bind f
  | skip next, f => skip (next.bind f)
  | expect kind what next, f => expect kind what fun t => (next t).bind f
  | unexpected what, _ => unexpected what
  | fail e, _ => fail e
  | call r next, f => call r fun x => (next x).bind f

instance : Monad Parser where
  pure := done
  bind := bind

theorem bind_done {α : Type} (p : Parser α) : p.bind done = p := by
  induction p <;> simp_all [bind]

theorem bind_assoc {α β γ : Type} (p : Parser α) (f : α → Parser β) (g : β → Parser γ) :
    (p.bind f).bind g = p.bind fun a => (f a).bind g := by
  induction p <;> simp_all [bind]

instance : LawfulMonad Parser :=
  LawfulMonad.mk' Parser bind_done (fun _ _ => rfl) bind_assoc

end Parser

end ClassLang
