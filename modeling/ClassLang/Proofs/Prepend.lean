import ClassLang.Grammar.Run

/-!
# Tokens before a stream

`TokenStream.prepend` puts tokens before a stream. A look at such a stream sees the tokens put
there, and taking one takes the first of them; the rest of the stream is not touched.
-/

namespace ClassLang

namespace TokenStream

/-- A stream with more tokens to be read before it. -/
def prepend (s : TokenStream) (ts : List Token) : TokenStream :=
  ⟨ts ++ s.tokens, s.failure⟩

/-- The kind of the token `n` places on, if there is one. -/
def kindAt (s : TokenStream) (n : Nat) : Option Kind :=
  s.tokens[n]?.map Token.kind

variable {s s' : TokenStream} {t : Token} {ts us : List Token} {n : Nat}

@[simp]
theorem prepend_tokens : (s.prepend ts).tokens = ts ++ s.tokens := rfl

@[simp]
theorem prepend_failure : (s.prepend ts).failure = s.failure := rfl

@[simp]
theorem prepend_nil : s.prepend [] = s := rfl

@[simp]
theorem prepend_prepend : (s.prepend us).prepend ts = s.prepend (ts ++ us) := by
  simp [prepend]

theorem prepend_append : s.prepend (ts ++ us) = (s.prepend us).prepend ts :=
  prepend_prepend.symm

@[simp]
theorem kindAt_prepend_zero : (s.prepend (t :: ts)).kindAt 0 = some t.kind := rfl

@[simp]
theorem kindAt_prepend_succ : (s.prepend (t :: ts)).kindAt (n + 1) = (s.prepend ts).kindAt n := rfl

@[simp]
theorem drop_prepend_one : (s.prepend (t :: ts)).drop 1 = s.prepend ts := rfl

theorem exists_prepend_of_kindAt {k : Kind} (h : s.kindAt 0 = some k) :
    ∃ t : Token, t.kind = k ∧ s = (s.drop 1).prepend [t] := by
  obtain ⟨_ | ⟨t, ts⟩, f⟩ := s
  · cases h
  · exact ⟨t, by simpa [kindAt] using h, rfl⟩

theorem ne_nil_of_kindAt {k : Kind} (h : s.kindAt 0 = some k) : s.tokens ≠ [] := by
  rintro hs
  simp [kindAt, hs] at h

/-- Whether a look `n` places on meets a token or the end of the input, and no error. -/
def Visible (n : Nat) (s : TokenStream) : Prop :=
  n < s.tokens.length ∨ s.failure = none

theorem peekKind_of_visible (h : s.Visible n) :
    TokenSource.peekKind n s = (.ok (s.kindAt n), s) := by
  simp only [TokenSource.peekKind, TokenSource.peekTokens, first, toExcept, kindAt]
  split
  · simp [Except.map]
  · rename_i hn
    rw [h.resolve_left hn]
    rfl

theorem peekKind_of_not_visible (h : ¬ s.Visible n) :
    ∃ e, TokenSource.peekKind n s = (.error e, s) := by
  simp only [Visible, not_or] at h
  obtain ⟨e, he⟩ := Option.ne_none_iff_exists'.1 h.2
  have hn : ¬ n + 1 ≤ s.tokens.length := h.1
  refine ⟨e, ?_⟩
  simp only [TokenSource.peekKind, TokenSource.peekTokens, first, toExcept, if_neg hn, he]
  rfl

theorem pop_cons (t : Token) (ts : List Token) (f : Option LexError) :
    TokenSource.pop (⟨t :: ts, f⟩ : TokenStream) = (.ok (), ⟨ts, f⟩) := by
  simp [TokenSource.pop, TokenSource.popTokens, TokenSource.nextTokens, first, drop, Except.map]

theorem next_cons (t : Token) (ts : List Token) (f : Option LexError) :
    TokenSource.next (⟨t :: ts, f⟩ : TokenStream) = (.ok (some t), ⟨ts, f⟩) := by
  simp [TokenSource.next, TokenSource.nextTokens, first, drop, Except.map]

theorem next_nil : TokenSource.next (⟨[], none⟩ : TokenStream) = (.ok none, ⟨[], none⟩) := rfl

theorem peek_eq (s : TokenStream) : ∃ r, TokenSource.peek s = (r, s) := ⟨_, rfl⟩

end TokenStream

end ClassLang
