import ClassLang.Token.Stream

/-!
# The lexer

A lexer scans its text as far as it is asked to. Tokens that were looked at and not yet taken are
held, to be handed out first; `stream` is what is still to be read, and scanning on leaves it as it is
(`fill_stream`). A scan that fails stays where it is, so the same error comes again.
-/

namespace ClassLang

/-- Tokens scanned but not yet taken, and the place to scan from. -/
structure Lexer where
  held : List Token
  cursor : Cursor
  deriving DecidableEq, Repr

/-- Up to `n` tokens, the error that came instead of another, and the place reached. -/
def Cursor.scan : Nat → Cursor → List Token × Option LexError × Cursor
  | 0, c => ([], none, c)
  | n + 1, c =>
    match c.next? with
    | .ok none => ([], none, c)
    | .ok (some (t, d)) =>
      let (ts, failure, d) := d.scan n
      (t :: ts, failure, d)
    | .error e => ([], some e, c)

theorem Cursor.stream_scan : ∀ (n : Nat) (c : Cursor),
    c.stream = ⟨(c.scan n).1 ++ (c.scan n).2.2.stream.tokens, (c.scan n).2.2.stream.failure⟩
  | 0, _ => rfl
  | n + 1, c => by
    rw [Cursor.scan]
    split
    · rfl
    · next t d h =>
      rw [stream_of_token h, stream_scan n d]
      rfl
    · rfl

namespace Lexer

/-- A lexer at the start of a text. -/
def ofText (text : String) : Lexer := ⟨[], .ofText text⟩

/-- What is still to be read: the held tokens, then those not yet scanned. -/
def stream (l : Lexer) : TokenStream :=
  let s := l.cursor.stream
  ⟨l.held ++ s.tokens, s.failure⟩

/-- Scan until `n` tokens are held or none is left, keeping those that come before an error. -/
def fill (n : Nat) (l : Lexer) : Option LexError × Lexer :=
  let (ts, failure, cursor) := l.cursor.scan (n - l.held.length)
  (failure, ⟨l.held ++ ts, cursor⟩)

@[simp]
theorem fill_stream (n : Nat) (l : Lexer) : (l.fill n).2.stream = l.stream := by
  simp only [fill, stream]
  rw [Cursor.stream_scan (n - l.held.length) l.cursor]
  simp

instance : TokenSource Lexer where
  peekTokens n l :=
    match l.fill n with
    | (none, l) => (.ok (l.held.take n), l)
    | (some e, l) => (.error e, l)
  nextTokens n l :=
    match l.fill n with
    | (none, l) => (.ok (l.held.take n), { l with held := l.held.drop n })
    | (some e, l) => (.error e, { l with held := [] })
  bound l := l.held.length + l.cursor.rest.length

end Lexer

end ClassLang
