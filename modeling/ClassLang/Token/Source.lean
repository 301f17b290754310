import ClassLang.Token.Cursor

/-!
# Sources of tokens

A source of tokens can be looked at and taken from, some tokens at a time. Fewer tokens than asked
for means that the input ends; an input that cannot be read that far is an error, and the source
that an error leaves can be used again. The other operations are made from these two.
-/

namespace ClassLang

/-- Looking at the next tokens, and taking them. -/
class TokenSource (σ : Type) where
  /-- Up to this many of the next tokens, which stay to be read. -/
  peekTokens : Nat → σ → Except LexError (List Token) × σ
  /-- Up to this many of the next tokens, which are gone then, also when others fail. -/
  nextTokens : Nat → σ → Except LexError (List Token) × σ
  /-- At least as many as there are tokens left. -/
  bound : σ → Nat

namespace TokenSource

variable {σ : Type} [TokenSource σ]

/-- The next token, which stays to be read. -/
def peek (s : σ) : Except LexError (Option Token) × σ :=
  (peekTokens 1 s).map (·.map List.head?) id

/-- The kind of the token `n` places on. -/
def peekKind (n : Nat) (s : σ) : Except LexError (Option Kind) × σ :=
  (peekTokens (n + 1) s).map (·.map fun ts => ts[n]?.map Token.kind) id

/-- The next token. -/
def next (s : σ) : Except LexError (Option Token) × σ :=
  (nextTokens 1 s).map (·.map List.head?) id

/-- Discard up to this many tokens. -/
def popTokens (n : Nat) (s : σ) : Except LexError Unit × σ :=
  (nextTokens n s).map (·.map fun _ => ()) id

/-- Discard the next token. -/
def pop (s : σ) : Except LexError Unit × σ :=
  popTokens 1 s

/-- An operation on a source of tokens, as a value. -/
inductive Step where
  | next
  | nextTokens (n : Nat)
  | peek
  | peekTokens (n : Nat)
  | peekKind (n : Nat)
  | pop
  | popTokens (n : Nat)
  deriving DecidableEq, Repr

/-- What an operation answers. -/
inductive Answer where
  | token (t : Option Token)
  | tokens (ts : List Token)
  | kind (k : Option Kind)
  | done
  deriving DecidableEq, Repr

/-- Do one operation. -/
def perform (s : σ) : Step → Except LexError Answer × σ
  | .next => (next s).map (·.map .token) id
  | .nextTokens n => (nextTokens n s).map (·.map .tokens) id
  | .peek => (peek s).map (·.map .token) id
  | .peekTokens n => (peekTokens n s).map (·.map .tokens) id
  | .peekKind n => (peekKind n s).map (·.map .kind) id
  | .pop => (pop s).map (·.map fun _ => .done) id
  | .popTokens n => (popTokens n s).map (·.map fun _ => .done) id

/-- Do operations in turn, going on after one that fails. -/
def performAll : σ → List Step → List (Except LexError Answer) × σ
  | s, [] => ([], s)
  | s, step :: steps =>
    let (answer, s) := perform s step
    let (answers, s) := performAll s steps
    (answer :: answers, s)

end TokenSource

end ClassLang
