import ClassLang.Grammar.Run

/-!
# A lexer reads its stream

Looking at the tokens of a lexer, or taking them, answers what the same does on the stream that is
still to be read, and leaves the lexer with what is left of it (`peekTokens_stream`,
`nextTokens_stream`). So a parser decides the same over a lexer and over its stream
(`Parser.run_stream`): which tokens are held and which are not yet scanned makes no difference.
-/

namespace ClassLang

namespace Cursor

/-- A scan that met no error has all the tokens it was asked for, or there are no more. -/
theorem scan_of_none : ∀ (n : Nat) (c : Cursor), (c.scan n).2.1 = none →
    (c.scan n).1.length = n ∨ (c.scan n).1.length < n ∧ (c.scan n).2.2.stream = ⟨[], none⟩
  | 0, c, _ => Or.inl rfl
  | n + 1, c, h => by
    rw [scan] at h ⊢
    split
    · rename_i hc
      exact Or.inr ⟨Nat.succ_pos n, stream_of_end hc⟩
    · rename_i t d hc
      rw [hc] at h
      rcases scan_of_none n d h with hn | ⟨hn, hs⟩
      · exact Or.inl (congrArg (· + 1) hn)
      · exact Or.inr ⟨Nat.succ_lt_succ hn, hs⟩
    · rename_i e hc
      rw [hc] at h
      cases h

/-- A scan that met an error stays before it, with fewer tokens than it was asked for. -/
theorem scan_of_some {e : LexError} : ∀ (n : Nat) (c : Cursor), (c.scan n).2.1 = some e →
    (c.scan n).1.length < n ∧ (c.scan n).2.2.stream = ⟨[], some e⟩
  | 0, c, h => by cases h
  | n + 1, c, h => by
    rw [scan] at h ⊢
    split
    · rename_i hc
      rw [hc] at h
      cases h
    · rename_i t d hc
      rw [hc] at h
      obtain ⟨hn, hs⟩ := scan_of_some n d h
      exact ⟨Nat.succ_lt_succ hn, hs⟩
    · rename_i e' hc
      rw [hc] at h
      cases h
      exact ⟨Nat.succ_pos n, stream_of_error hc⟩

/-- No token is empty. -/
theorem length_stream_le (c : Cursor) : c.stream.tokens.length ≤ c.rest.length := by
  rcases hc : c.next? with e | _ | ⟨t, d⟩
  · simp [stream_of_error hc]
  · simp [stream_of_end hc]
  · have hd := length_stream_le d
    have hs := next?_shorter hc
    simp only [stream_of_token hc, List.length_cons]
    omega
termination_by c.rest.length
decreasing_by exact next?_shorter hc

end Cursor

namespace Lexer

theorem fill_of_none {n : Nat} {l m : Lexer} (h : l.fill n = (none, m)) :
    n ≤ m.held.length ∨ m.cursor.stream = ⟨[], none⟩ := by
  simp only [fill, Prod.mk.injEq] at h
  obtain ⟨hf, rfl⟩ := h
  rcases Cursor.scan_of_none _ _ hf with hn | ⟨-, hd⟩
  · left
    simp only [List.length_append]
    omega
  · exact Or.inr hd

theorem fill_of_some {n : Nat} {l m : Lexer} {e : LexError} (h : l.fill n = (some e, m)) :
    m.held.length < n ∧ m.cursor.stream = ⟨[], some e⟩ := by
  simp only [fill, Prod.mk.injEq] at h
  obtain ⟨hf, rfl⟩ := h
  obtain ⟨hn, hd⟩ := Cursor.scan_of_some _ _ hf
  refine ⟨?_, hd⟩
  simp only [List.length_append]
  omega

theorem stream_of_fill {n : Nat} {l m : Lexer} {f : Option LexError} (h : l.fill n = (f, m)) :
    l.stream = m.stream := by
  rw [← fill_stream n l, h]

theorem first_of_held {n : Nat} {m : Lexer}
    (h : n ≤ m.held.length ∨ m.cursor.stream = ⟨[], none⟩) :
    m.stream.first n = .ok (m.held.take n) := by
  simp only [stream, TokenStream.first, TokenStream.toExcept, List.length_append]
  rcases h with h | h
  · rw [if_pos (by omega), List.take_append_of_le_length h]
  · simp only [h, List.append_nil, List.length_nil]
    split
    · rfl
    · rw [List.take_of_length_le (by omega)]

theorem drop_of_held {n : Nat} {m : Lexer}
    (h : n ≤ m.held.length ∨ m.cursor.stream = ⟨[], none⟩) :
    m.stream.drop n = { m with held := m.held.drop n }.stream := by
  simp only [stream, TokenStream.drop]
  rcases h with h | h
  · rw [List.drop_append_of_le_length h]
  · simp [h]

theorem stream_of_failure {m : Lexer} {e : LexError} (h : m.cursor.stream = ⟨[], some e⟩) :
    m.stream = ⟨m.held, some e⟩ := by
  simp [stream, h]

/-- Looking ahead shows the next tokens of the stream, and leaves it as it is. -/
theorem peekTokens_stream (n : Nat) (l : Lexer) :
    TokenSource.peekTokens n l.stream
      = ((TokenSource.peekTokens n l).1, (TokenSource.peekTokens n l).2.stream) := by
  simp only [TokenSource.peekTokens]
  rcases hf : l.fill n with ⟨_ | e, m⟩
  · rw [stream_of_fill hf, first_of_held (fill_of_none hf)]
  · obtain ⟨hn, hd⟩ := fill_of_some hf
    rw [stream_of_fill hf, stream_of_failure hd, TokenStream.first, if_neg (by simpa using hn)]
    rfl

/-- Taking tokens takes them off the stream. -/
theorem nextTokens_stream (n : Nat) (l : Lexer) :
    TokenSource.nextTokens n l.stream
      = ((TokenSource.nextTokens n l).1, (TokenSource.nextTokens n l).2.stream) := by
  simp only [TokenSource.nextTokens]
  rcases hf : l.fill n with ⟨_ | e, m⟩
  · have hm := fill_of_none hf
    rw [stream_of_fill hf, first_of_held hm, drop_of_held hm]
  · obtain ⟨hn, hd⟩ := fill_of_some hf
    rw [stream_of_fill hf, stream_of_failure hd, TokenStream.first, if_neg (by simpa using hn),
      stream_of_failure (m := { m with held := [] }) hd, TokenStream.drop]
    rw [List.drop_eq_nil_of_le (Nat.le_of_lt hn)]
    rfl

theorem peekKind_stream (n : Nat) (l : Lexer) :
    TokenSource.peekKind n l.stream
      = ((TokenSource.peekKind n l).1, (TokenSource.peekKind n l).2.stream) := by
  simp only [TokenSource.peekKind, peekTokens_stream]
  rfl

theorem peek_stream (l : Lexer) :
    TokenSource.peek l.stream = ((TokenSource.peek l).1, (TokenSource.peek l).2.stream) := by
  simp only [TokenSource.peek, peekTokens_stream]
  rfl

theorem next_stream (l : Lexer) :
    TokenSource.next l.stream = ((TokenSource.next l).1, (TokenSource.next l).2.stream) := by
  simp only [TokenSource.next, nextTokens_stream]
  rfl

theorem pop_stream (l : Lexer) :
    TokenSource.pop l.stream = ((TokenSource.pop l).1, (TokenSource.pop l).2.stream) := by
  simp only [TokenSource.pop, TokenSource.popTokens, nextTokens_stream]
  rfl

/-- There are at most as many tokens left as the bound says. -/
theorem length_stream_le (l : Lexer) :
    l.stream.tokens.length ≤ TokenSource.bound l := by
  have := l.cursor.length_stream_le
  simp only [stream, List.length_append, TokenSource.bound]
  omega

@[simp]
theorem stream_ofText (text : String) : (Lexer.ofText text).stream = TokenStream.ofText text := rfl

end Lexer

/-- A lexer that is asked for more tokens than it gives has given all there are. -/
theorem tokenize_of_nextTokens {n : Nat} {text : String} {ts : List Token}
    (h : (TokenSource.nextTokens n (Lexer.ofText text)).1 = .ok ts) (hn : ts.length < n) :
    tokenize text = .ok ts := by
  have hfirst : (TokenStream.ofText text).first n = .ok ts := by
    have := congrArg Prod.fst (Lexer.nextTokens_stream n (Lexer.ofText text))
    rw [h, Lexer.stream_ofText] at this
    exact this
  unfold TokenStream.first at hfirst
  split at hfirst
  · cases hfirst
    rw [List.length_take] at hn
    omega
  · exact hfirst

section Run

variable {callStream : (r : Rule) → TokenStream → Except ParseError r.Node × TokenStream}
  {callLexer : (r : Rule) → Lexer → Except ParseError r.Node × Lexer}

/-- A parser over a lexer answers what it answers over the stream, if the rules it calls do. -/
theorem Parser.run_stream {α : Type}
    (hc : ∀ r l, callStream r l.stream = ((callLexer r l).1, (callLexer r l).2.stream)) :
    ∀ (p : Parser α) (l : Lexer),
      p.run callStream l.stream = ((p.run callLexer l).1, (p.run callLexer l).2.stream)
  | .done _, _ => rfl
  | .look n next, l => by
    simp only [Parser.run, Lexer.peekKind_stream]
    rcases TokenSource.peekKind n l with ⟨_ | k, m⟩
    · rfl
    · exact run_stream hc _ m
  | .skip next, l => by
    simp only [Parser.run, Lexer.pop_stream]
    rcases TokenSource.pop l with ⟨_ | _, m⟩
    · rfl
    · exact run_stream hc next m
  | .expect kind what next, l => by
    simp only [Parser.run, Lexer.next_stream]
    rcases TokenSource.next l with ⟨_ | _ | t, m⟩
    · rfl
    · rfl
    · simp only []
      split
      · exact run_stream hc _ m
      · rfl
  | .unexpected what, l => by
    simp only [Parser.run, Lexer.peek_stream]
    rcases TokenSource.peek l with ⟨_ | t, m⟩ <;> rfl
  | .fail _, _ => rfl
  | .call r next, l => by
    simp only [Parser.run, hc]
    rcases callLexer r l with ⟨_ | x, m⟩
    · rfl
    · exact run_stream hc _ m

theorem Rule.run_stream : ∀ (n : Nat) (r : Rule) (l : Lexer),
    Rule.run n r l.stream = ((Rule.run n r l).1, (Rule.run n r l).2.stream)
  | 0, _, _ => rfl
  | n + 1, r, l => Parser.run_stream (Rule.run_stream n) r.body l

end Run

end ClassLang
