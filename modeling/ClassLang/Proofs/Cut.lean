import ClassLang.Proofs.Calls

/-!
# Streams that are cut short

An error ends a stream after some tokens, where another stream goes on. A parser does the same on
both, or meets the error (`Parser.Guarded.run_cut`). It meets the error only where it looks past the
tokens before it, and no look goes further than one token past the next. So a run that leaves two
tokens before the end of the input is the same before an error (`Parser.Guarded.run_of_two_le`).
-/

namespace ClassLang

open TokenStream

/-- What comes of a stream that is cut short by an error, and of one that goes on: the same, with
the same tokens left before they part, or the error, where the other stream was left with no more
than one token before. -/
inductive CutShort {α : Type} (e : LexError) (us : List Token) (f : Option LexError) :
    Except ParseError α × TokenStream → Except ParseError α × TokenStream → Prop
  | same (r : Except ParseError α) (ts : List Token) :
    CutShort e us f (r, ⟨ts, some e⟩) (r, ⟨ts ++ us, f⟩)
  | met (s : TokenStream) {o : Except ParseError α × TokenStream}
    (h : o.2.tokens.length ≤ us.length + 1) : CutShort e us f (.error (.lexical e), s) o

section Cut

variable {e : LexError} {us : List Token} {f : Option LexError} {α : Type} {rank : Nat}
  {must seen taken : Bool} {p : Parser α}
  {call : (r : Rule) → TokenStream → Except ParseError r.Node × TokenStream}

theorem peekKind_of_length_le {n : Nat} {ts : List Token} (h : ts.length ≤ n) :
    TokenSource.peekKind n (⟨ts, some e⟩ : TokenStream) = (.error e, ⟨ts, some e⟩) := by
  have hn : ¬ n + 1 ≤ ts.length := by omega
  simp [TokenSource.peekKind, TokenSource.peekTokens, first, toExcept, hn, Except.map]

theorem peek_cons (t : Token) (ts : List Token) (f : Option LexError) :
    TokenSource.peek (⟨t :: ts, f⟩ : TokenStream) = (.ok (some t), ⟨t :: ts, f⟩) := by
  simp [TokenSource.peek, TokenSource.peekTokens, first, Except.map]

theorem Parser.Guarded.run_cut
    (hcall : ∀ r ts, CutShort e us f (call r ⟨ts, some e⟩) (call r ⟨ts ++ us, f⟩))
    (hsuffix : ∀ r s, (call r s).2.tokens <:+ s.tokens) (h : p.Guarded rank must seen taken) :
    ∀ ts, CutShort e us f (p.run call ⟨ts, some e⟩) (p.run call ⟨ts ++ us, f⟩) := by
  have hmet : ∀ {β : Type} (q : Parser β) {ts : List Token}, ts.length ≤ 1 →
      (q.run call ⟨ts ++ us, f⟩).2.tokens.length ≤ us.length + 1 := by
    intro β q ts hts
    have hle := (Parser.run_suffix hsuffix q ⟨ts ++ us, f⟩).length_le
    simp only [List.length_append] at hle
    omega
  induction p generalizing seen taken with
  | done a => exact fun ts => .same (.ok a) ts
  | look n next ih =>
    intro ts
    by_cases hn : n < ts.length
    · have hkind : (⟨ts ++ us, f⟩ : TokenStream).kindAt n
          = (⟨ts, some e⟩ : TokenStream).kindAt n := by
        simp only [kindAt, List.getElem?_append_left hn]
      have hn' : n < (ts ++ us).length := by
        rw [List.length_append]
        omega
      rw [Parser.run, Parser.run, peekKind_of_visible (Or.inl hn), peekKind_of_visible (Or.inl hn'),
        hkind]
      exact ih _ (h.2 _) ts
    · -- the look goes past the cut, and it goes no further than the token past the next
      have hlook := h.1
      have hrun : (Parser.look n next).run call ⟨ts, some e⟩
          = (.error (.lexical e), ⟨ts, some e⟩) := by
        rw [Parser.run, peekKind_of_length_le (by omega)]
      rw [hrun]
      exact .met _ (hmet _ (by omega))
  | skip next ih =>
    rintro (_ | ⟨t, ts⟩)
    · exact .met _ (hmet (.skip next) (Nat.zero_le 1))
    · rw [List.cons_append, Parser.run, Parser.run, pop_cons, pop_cons]
      exact ih h.2 ts
  | expect kind what next ih =>
    rintro (_ | ⟨t, ts⟩)
    · exact .met _ (hmet (.expect kind what next) (Nat.zero_le 1))
    · rw [List.cons_append, Parser.run, Parser.run, next_cons, next_cons]
      by_cases hk : t.kind = kind
      · simp only [hk, if_true]
        exact ih _ (h _) ts
      · simp only [hk, if_false]
        exact .same _ ts
  | unexpected what =>
    rintro (_ | ⟨t, ts⟩)
    · exact .met _ (hmet (.unexpected what) (Nat.zero_le 1))
    · rw [List.cons_append, Parser.run, Parser.run, peek_cons, peek_cons]
      exact .same _ (t :: ts)
  | fail e' => exact fun ts => .same (.error e') ts
  | call r next ih =>
    intro ts
    have hr := hcall r ts
    rw [Parser.run, Parser.run]
    generalize call r ⟨ts, some e⟩ = o, call r ⟨ts ++ us, f⟩ = o' at hr
    rcases hr with ⟨_ | x, ts'⟩ | ⟨s, hle⟩
    · exact .same _ ts'
    · exact ih x (h.2 x) ts'
    · -- the call has met the error, and the tokens it leaves on the other stream only get fewer
      obtain ⟨_ | x, s'⟩ := o'
      · exact .met s hle
      · exact .met s (Nat.le_trans (Parser.run_suffix hsuffix (next x) s').length_le hle)

theorem Rule.run_cut : ∀ (n : Nat) (r : Rule) (ts : List Token),
    CutShort e us f (Rule.run n r ⟨ts, some e⟩) (Rule.run n r ⟨ts ++ us, f⟩)
  | 0, _, ts => .same (.error .exhausted) ts
  | n + 1, r, ts => r.body_guarded.run_cut (Rule.run_cut n) (Rule.run_suffix n) ts

theorem Rule.read_cut (r : Rule) (ts : List Token) :
    CutShort e us f (r.read ⟨ts, some e⟩) (r.read ⟨ts ++ us, f⟩) := by
  have hdepth : r.depth ⟨ts, some e⟩ ≤ r.depth ⟨ts ++ us, f⟩ := by
    simp only [Rule.depth, List.length_append]
    omega
  rw [← Rule.run_eq_read hdepth]
  exact Rule.run_cut _ r ts

theorem Parser.Guarded.read_cut (h : p.Guarded rank must seen taken) (ts : List Token) :
    CutShort e us f (p.run Rule.read ⟨ts, some e⟩) (p.run Rule.read ⟨ts ++ us, f⟩) :=
  h.run_cut Rule.read_cut (fun r s => Rule.run_suffix (r.depth s) r s) ts

/-- A run that leaves two tokens has not seen how the stream ends. -/
theorem Parser.Guarded.run_of_two_le (h : p.Guarded rank must seen taken) {ts ts' : List Token}
    {r : Except ParseError α} (hrun : p.run Rule.read ⟨ts, none⟩ = (r, ⟨ts', none⟩))
    (hlength : 2 ≤ ts'.length) (f : Option LexError) :
    p.run Rule.read ⟨ts, f⟩ = (r, ⟨ts', f⟩) := by
  rcases f with _ | e
  · exact hrun
  · have hcut : CutShort e [] none (p.run Rule.read ⟨ts, some e⟩)
        (p.run Rule.read ⟨ts ++ [], none⟩) := h.read_cut ts
    rw [List.append_nil, hrun] at hcut
    generalize p.run Rule.read ⟨ts, some e⟩ = o at hcut ⊢
    rcases hcut with ⟨r, ys⟩ | ⟨s, hle⟩
    · rw [List.append_nil]
    · simp only [List.length_nil] at hle
      omega

end Cut

end ClassLang
