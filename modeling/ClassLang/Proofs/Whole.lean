import ClassLang.Proofs.Reads

/-!
# Whole texts

A text that is parsed to its end is read off its stream: `parse_eq_ok_iff` says so of a class,
`Goal.holds_iff` of what any goal yields. However a parser came to be where it is, the tokens it still
has to read are the last ones of its text, and genuine (`parseAll_genuine`).
-/

namespace ClassLang

/-- A text is what a goal yields, and nothing else. -/
def Goal.Holds (g : Goal) (text : String) (x : g.Result) : Prop :=
  (parseAll (Lexer.ofText text) [g, .finish]).1 = [⟨g, .ok x⟩, ⟨.finish, .ok ()⟩]

/-- A text is one statement, and nothing else. -/
def HoldsStatement (text : String) (x : Statement) : Prop :=
  (parseAll (Lexer.ofText text) [.statement, .finish]).1
    = [⟨.statement, .ok x⟩, ⟨.finish, .ok ()⟩]

section Reads

variable {α β : Type} {p : Parser α} {f : α → Parser β} {s s' : TokenStream} {a : α} {b : β}

theorem Parser.Reads.of_bind (h : (p >>= f).Reads s b s') :
    ∃ a s₁, p.Reads s a s₁ ∧ (f a).Reads s₁ b s' := by
  change (p.bind f).run Rule.read s = _ at h
  rw [run_bind] at h
  rcases hp : p.run Rule.read s with ⟨_ | a, s₁⟩ <;> rw [hp] at h
  · cases h
  · exact ⟨a, s₁, hp, h⟩

theorem Grammar.finish_reads_iff : finish.Reads s () s' ↔ s = ⟨[], none⟩ ∧ s' = ⟨[], none⟩ := by
  constructor
  · intro h
    change (Parser.look 0 _).run Rule.read s = _ at h
    by_cases hv : s.Visible 0
    · rw [Parser.run, TokenStream.peekKind_of_visible hv] at h
      obtain ⟨_ | ⟨t, ts⟩, f⟩ := s
      · have hf : f = none := hv.resolve_left (Nat.not_lt_zero _)
        cases hf
        cases h
        exact ⟨rfl, rfl⟩
      · obtain ⟨r, hr⟩ := TokenStream.peek_eq ⟨t :: ts, f⟩
        change (Parser.unexpected _).run Rule.read _ = _ at h
        rw [Parser.run, hr] at h
        cases r <;> cases h
    · obtain ⟨e, he⟩ := TokenStream.peekKind_of_not_visible hv
      rw [Parser.run, he] at h
      cases h
  · rintro ⟨rfl, rfl⟩
    exact .look (Or.inr rfl) .pure

/-- What a guarded parser reads it takes, at some depth of calls. -/
theorem Parser.Reads.takes {rank : Nat} {must : Bool} (hp : p.Guarded rank must false false)
    (hr : rank ≤ 3) (hs : s.Genuine) (h : p.Reads s a s') : ∃ n, p.Takes n s a s' :=
  ⟨_, hs, (hp.run_eq hr (Nat.le_refl _)).trans h⟩

end Reads

theorem parse_eq_ok_iff {text : String} {c : Class} :
    parse text = .ok c ↔ Grammar.wholeClass.Reads (TokenStream.ofText text) c ⟨[], none⟩ := by
  have hread : parse text = .ok c
      ↔ ∃ s, Grammar.wholeText.Reads (TokenStream.ofText text) c s := by
    rw [parse_eq]
    constructor
    · intro h
      exact ⟨(Grammar.wholeText.run Rule.read (TokenStream.ofText text)).2, Prod.ext h rfl⟩
    · rintro ⟨s, h⟩
      rw [h]
  rw [hread]
  constructor
  · rintro ⟨s, h⟩
    obtain ⟨d, s₁, hd, h₁⟩ := h.of_bind
    obtain ⟨u, s₂, hf, h₂⟩ := h₁.of_bind
    obtain ⟨rfl, rfl⟩ := Grammar.finish_reads_iff.1 hf
    cases h₂
    exact hd
  · intro h
    exact ⟨_, h.bind ((Grammar.finish_reads_iff.2 ⟨rfl, rfl⟩).bind .pure)⟩

theorem Goal.holds_iff {g : Goal} {text : String} {x : g.Result} :
    g.Holds text x ↔ g.parser.Reads (TokenStream.ofText text) x ⟨[], none⟩ := by
  have hs := g.parse_stream (Lexer.ofText text)
  have hf := Goal.finish.parse_stream (g.parse (Lexer.ofText text)).2
  rw [Lexer.stream_ofText] at hs
  unfold Holds
  simp only [parseAll, List.cons.injEq, Sigma.mk.injEq, heq_eq_eq, true_and, and_true]
  constructor
  · rintro ⟨hx, hu⟩
    rw [hx] at hs
    rw [hu] at hf
    obtain ⟨hend, -⟩ := Grammar.finish_reads_iff.1 hf
    rw [hend] at hs
    exact hs
  · intro h
    rw [show g.read _ = _ from h, Prod.mk.injEq] at hs
    obtain ⟨hx, hend⟩ := hs
    have hfinish : Goal.finish.read ⟨[], none⟩ = (.ok (), ⟨[], none⟩) :=
      Grammar.finish_reads_iff.2 ⟨rfl, rfl⟩
    rw [← hend, hfinish, Prod.mk.injEq] at hf
    exact ⟨hx.symm, hf.1.symm⟩

theorem holdsStatement_iff {text : String} {x : Statement} :
    HoldsStatement text x ↔ Grammar.statement.Reads (TokenStream.ofText text) x ⟨[], none⟩ :=
  Goal.holds_iff (g := .statement)

section Genuine

theorem TokenStream.Genuine.suffix {s s' : TokenStream} (h : s.Genuine)
    (hs : s'.tokens <:+ s.tokens) : s'.Genuine :=
  fun t ht => h t (hs.subset ht)

theorem TokenStream.ofText_genuine (text : String) : (TokenStream.ofText text).Genuine :=
  Cursor.stream_genuine _

theorem Goal.parse_suffix (g : Goal) (l : Lexer) :
    (g.parse l).2.stream.tokens <:+ l.stream.tokens := by
  have h := Parser.run_suffix (fun r s => Rule.run_suffix (r.depth s) r s) g.parser l.stream
  change (g.read l.stream).2.tokens <:+ _ at h
  rwa [g.parse_stream] at h

theorem parseAll_suffix : ∀ (gs : List Goal) (l : Lexer),
    (parseAll l gs).2.stream.tokens <:+ l.stream.tokens
  | [], _ => List.suffix_refl _
  | g :: gs, l => (parseAll_suffix gs (g.parse l).2).trans (g.parse_suffix l)

theorem parseAll_genuine (text : String) (gs : List Goal) :
    (parseAll (Lexer.ofText text) gs).2.stream.Genuine :=
  (TokenStream.ofText_genuine text).suffix (parseAll_suffix gs _)

end Genuine

end ClassLang
