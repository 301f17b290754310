import ClassLang.Token.Source

/-!
# Token streams

The stream of a text is every token that scanning it yields, and the error that ends it, if one
does. It is the token at a place and the stream after it (`Cursor.stream_of_token`). A stream is the
plainest source of tokens: looking changes nothing, and taking drops what was taken.
-/

namespace ClassLang

/-- Tokens in order, up to the end of the input or to an error. -/
structure TokenStream where
  tokens : List Token
  failure : Option LexError
  deriving DecidableEq, Repr

/-- Everything scanning yields from a place on. -/
def Cursor.stream (c : Cursor) : TokenStream :=
  match _h : c.next? with
  | .ok none => ⟨[], none⟩
  | .ok (some (t, d)) =>
    let s := d.stream
    ⟨t :: s.tokens, s.failure⟩
  | .error e => ⟨[], some e⟩
termination_by c.rest.length
decreasing_by exact Cursor.next?_shorter _h

namespace Cursor

theorem stream_of_end {c : Cursor} (h : c.next? = .ok none) : c.stream = ⟨[], none⟩ := by
  rw [stream]
  split <;> simp_all

theorem stream_of_token {c d : Cursor} {t : Token} (h : c.next? = .ok (some (t, d))) :
    c.stream = ⟨t :: d.stream.tokens, d.stream.failure⟩ := by
  rw [stream]
  split <;> simp_all

theorem stream_of_error {c : Cursor} {e : LexError} (h : c.next? = .error e) :
    c.stream = ⟨[], some e⟩ := by
  rw [stream]
  split <;> simp_all

end Cursor

namespace TokenStream

/-- The stream of a whole text. -/
def ofText (text : String) : TokenStream :=
  (Cursor.ofText text).stream

/-- The tokens, if the stream ends with its input. -/
def toExcept (s : TokenStream) : Except LexError (List Token) :=
  match s.failure with
  | none => .ok s.tokens
  | some e => .error e

/-- The first `n` tokens, or all of them if no error comes after. -/
def first (n : Nat) (s : TokenStream) : Except LexError (List Token) :=
  if n ≤ s.tokens.length then .ok (s.tokens.take n) else s.toExcept

/-- What is left after the first `n` tokens. -/
def drop (n : Nat) (s : TokenStream) : TokenStream :=
  ⟨s.tokens.drop n, s.failure⟩

instance : TokenSource TokenStream where
  peekTokens n s := (s.first n, s)
  nextTokens n s := (s.first n, s.drop n)
  bound s := s.tokens.length

end TokenStream

/-- The tokens of a text. -/
def tokenize (text : String) : Except LexError (List Token) :=
  (TokenStream.ofText text).toExcept

theorem TokenStream.ofText_of_tokenize {text : String} {ts : List Token}
    (h : tokenize text = .ok ts) : TokenStream.ofText text = ⟨ts, none⟩ := by
  rcases hs : TokenStream.ofText text with ⟨us, _ | e⟩ <;>
    rw [tokenize, hs] at h <;> cases h
  rfl

end ClassLang
