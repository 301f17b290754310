import ClassLang.Grammar.Class
import ClassLang.Token.Lexer

/-!
# Parsing

A parser runs over any source of tokens. Rules call one another to a depth that is bounded by the
number of tokens left, since a few calls in a row take one. A parse that fails leaves the source
where it stopped: after a token that was required to be another, before one that was only looked at.
-/

namespace ClassLang

variable {σ : Type} [TokenSource σ]

/-- Run a parser, given how rules are run. -/
def Parser.run {α : Type} (call : (r : Rule) → σ → Except ParseError r.Node × σ) :
    Parser α → σ → Except ParseError α × σ
  | .done a, s => (.ok a, s)
  | .look n next, s =>
    match TokenSource.peekKind n s with
    | (.ok k, s) => (next k).run call s
    | (.error e, s) => (.error (.lexical e), s)
  | .skip next, s =>
    match TokenSource.pop s with
    | (.ok _, s) => next.run call s
    | (.error e, s) => (.error (.lexical e), s)
  | .expect kind what next, s =>
    match TokenSource.next s with
    | (.ok (some t), s) =>
      if t.kind = kind then (next t.content).run call s
      else (.error (.expected what (some t.content)), s)
    | (.ok none, s) => (.error (.expected what none), s)
    | (.error e, s) => (.error (.lexical e), s)
  | .unexpected what, s =>
    match TokenSource.peek s with
    | (.ok t, s) => (.error (.expected what (t.map Token.content)), s)
    | (.error e, s) => (.error (.lexical e), s)
  | .fail e, s => (.error e, s)
  | .call r next, s =>
    match call r s with
    | (.ok x, s) => (next x).run call s
    | (.error e, s) => (.error e, s)

/-- A parser that goes on from a result runs from where the result was had. -/
theorem Parser.run_bind {α β : Type} (call : (r : Rule) → σ → Except ParseError r.Node × σ)
    (f : α → Parser β) : ∀ (p : Parser α) (s : σ),
    (p.bind f).run call s = match p.run call s with
      | (.ok a, s) => (f a).run call s
      | (.error e, s) => (.error e, s)
  | .done _, _ => rfl
  | .look n next, s => by
    simp only [Parser.bind, Parser.run]
    split
    · exact run_bind call f _ _
    · rfl
  | .skip next, s => by
    simp only [Parser.bind, Parser.run]
    split
    · exact run_bind call f _ _
    · rfl
  | .expect kind what next, s => by
    simp only [Parser.bind, Parser.run]
    split
    · split
      · exact run_bind call f _ _
      · rfl
    · rfl
    · rfl
  | .unexpected what, s => by
    simp only [Parser.bind, Parser.run]
    split <;> rfl
  | .fail _, _ => rfl
  | .call r next, s => by
    simp only [Parser.bind, Parser.run]
    split
    · exact run_bind call f _ _
    · rfl

/-- Run a rule, with calls nested at most this deep. -/
def Rule.run : Nat → (r : Rule) → σ → Except ParseError r.Node × σ
  | 0, _, s => (.error .exhausted, s)
  | n + 1, r, s => r.body.run (Rule.run n) s

/-- A depth of calls that reading this many tokens never needs. -/
def callBound (tokens : Nat) : Nat :=
  4 * tokens + 8

/-- Run a parser on a source of tokens. -/
def Parser.parse {α : Type} (p : Parser α) (s : σ) : Except ParseError α × σ :=
  p.run (Rule.run (callBound (TokenSource.bound s))) s

/-- What can be asked of a parser. -/
inductive Goal where
  | wholeClass
  | statement
  | expression
  | conditions
  | finish
  deriving DecidableEq, Repr

namespace Goal

/-- What a goal yields. -/
abbrev Result : Goal → Type
  | wholeClass => Class
  | statement => Statement
  | expression => Expression
  | conditions => Conditions
  | finish => Unit

/-- How a goal is read. -/
def parser : (g : Goal) → Parser g.Result
  | wholeClass => Grammar.wholeClass
  | statement => Grammar.statement
  | expression => Grammar.expression
  | conditions => Grammar.conditions
  | finish => Grammar.finish

/-- Parse one goal. -/
def parse (g : Goal) (s : σ) : Except ParseError g.Result × σ :=
  g.parser.parse s

end Goal

/-- Parse goals in turn, going on after one that fails. -/
def parseAll : σ → List Goal → List ((g : Goal) × Except ParseError g.Result) × σ
  | s, [] => ([], s)
  | s, g :: gs =>
    let (result, s) := g.parse s
    let (results, s) := parseAll s gs
    (⟨g, result⟩ :: results, s)

/-- One class and nothing after it. -/
def Grammar.wholeText : Parser Class := do
  let c ← wholeClass
  finish
  return c

/-- The class that a text holds. -/
def parse (text : String) : Except ParseError Class :=
  (Grammar.wholeText.parse (Lexer.ofText text)).1

end ClassLang
