import ClassLang.Proofs.Accounted
import ClassLang.Proofs.Cut
import ClassLang.Proofs.Uses

/-!
# Parsers that look before they take

A token that was required to be another is taken before the parser fails over it, one that was only
looked at is not. `Parser.careful` looks at a required token first, and leaves it where it is the
wrong one; but for that token it comes to the same as the parser it is made from
(`Rule.run_careful`). So it stops right before what the error is about
(`ParseError.About`, `Parser.Uses.careful_about`), and what a goal leaves is told from there
(`goal_leaves`).
-/

namespace ClassLang

namespace Parser

/-- The same parser, but that it looks at a required token before it takes it. -/
def careful {α : Type} : Parser α → Parser α
  | done a => done a
  | look n next => look n fun k => (next k).careful
  | skip next => skip next.careful
  | expect kind what next => look 0 fun k =>
    if k = some kind then expect kind what fun t => (next t).careful else unexpected what
  | unexpected what => unexpected what
  | fail e => fail e
  | call r next => call r fun x => (next x).careful

theorem careful_bind {α β : Type} (f : α → Parser β) (p : Parser α) :
    (p >>= f).careful = p.careful >>= fun a => (f a).careful := by
  show (p.bind f).careful = p.careful.bind fun a => (f a).careful
  induction p with
  | done a => rfl
  | look n next ih => exact congrArg (look n) (funext ih)
  | skip next ih => exact congrArg skip ih
  | expect kind what next ih =>
    refine congrArg (look 0) (funext fun k => ?_)
    by_cases hk : k = some kind
    · simp only [if_pos hk, bind]
      exact congrArg (expect kind what) (funext ih)
    · simp only [if_neg hk, bind]
  | unexpected what => rfl
  | fail e => rfl
  | call r next ih => exact congrArg (call r) (funext ih)

end Parser

/-- Run a rule that looks before it takes, as do those it calls, nested at most this deep. -/
def Rule.runCareful : Nat → (r : Rule) → TokenStream → Except ParseError r.Node × TokenStream
  | 0, _, s => (.error .exhausted, s)
  | n + 1, r, s => r.body.careful.run (Rule.runCareful n) s

/-- What a careful parser comes to where another comes to this: the same, or the same error before
the wrong token that the other has taken. -/
inductive Untaken {α : Type} :
    Except ParseError α × TokenStream → Except ParseError α × TokenStream → Prop
  | same (o : Except ParseError α × TokenStream) : Untaken o o
  | wrong (what : String) (t : Token) (s : TokenStream) :
    Untaken (.error (.expected what (some t.content)), s.prepend [t])
      (.error (.expected what (some t.content)), s)

section Untaken

variable {α : Type}
  {callCareful call : (r : Rule) → TokenStream → Except ParseError r.Node × TokenStream}

theorem Parser.run_careful (hc : ∀ r s, Untaken (callCareful r s) (call r s)) :
    ∀ (p : Parser α) (s : TokenStream), Untaken (p.careful.run callCareful s) (p.run call s)
  | .done a, s => .same (.ok a, s)
  | .look n next, s => by
    simp only [careful, run]
    rcases TokenSource.peekKind n s with ⟨_ | k, s₁⟩
    · exact .same _
    · exact run_careful hc (next k) s₁
  | .skip next, s => by
    simp only [careful, run]
    rcases TokenSource.pop s with ⟨_ | k, s₁⟩
    · exact .same _
    · exact run_careful hc next s₁
  | .expect kind what next, ⟨[], none⟩ => .same _
  | .expect kind what next, ⟨[], some e⟩ => .same _
  | .expect kind what next, ⟨t :: ts, f⟩ => by
    have hlook : TokenSource.peekKind 0 (⟨t :: ts, f⟩ : TokenStream)
        = (.ok (some t.kind), ⟨t :: ts, f⟩) :=
      TokenStream.peekKind_of_visible (Or.inl (Nat.succ_pos _))
    simp only [careful, run, hlook, TokenStream.next_cons, Option.some.injEq]
    by_cases hk : t.kind = kind
    · simp only [if_pos hk, run, TokenStream.next_cons]
      exact run_careful hc (next t.content) ⟨ts, f⟩
    · simp only [if_neg hk, run, peek_cons]
      exact .wrong what t ⟨ts, f⟩
  | .unexpected what, s => .same _
  | .fail e, s => .same (.error e, s)
  | .call r next, s => by
    have hr := hc r s
    simp only [careful, run]
    generalize callCareful r s = o, call r s = o' at hr
    rcases hr with ⟨_ | x, s₁⟩ | ⟨what, t, s₁⟩
    · exact .same _
    · exact run_careful hc (next x) s₁
    · exact .wrong what t s₁

theorem Rule.run_careful : ∀ (n : Nat) (r : Rule) (s : TokenStream),
    Untaken (Rule.runCareful n r s) (Rule.run n r s)
  | 0, _, s => .same (.error .exhausted, s)
  | n + 1, r, s => Parser.run_careful (Rule.run_careful n) r.body s

end Untaken

/-- What an error says of the place it is about: what stands there, or that nothing does. -/
def ParseError.About : ParseError → TokenStream → Prop
  | lexical e, s => s.failure = some e
  | expected _ found, s => s.Visible 0 ∧ found = s.tokens.head?.map Token.content
  | defaultNotLast, s => s.kindAt 0 ≠ some (.symbol .rightBrace)
  | exhausted, _ => True

namespace TokenStream

theorem peekKind_eq_error {n : Nat} {s s' : TokenStream} {e : LexError}
    (h : TokenSource.peekKind n s = (.error e, s')) : s' = s ∧ s.failure = some e := by
  by_cases hv : s.Visible n
  · rw [peekKind_of_visible hv] at h
    cases h
  · simp only [Visible, not_or] at hv
    obtain ⟨f, hf⟩ := Option.ne_none_iff_exists'.1 hv.2
    have hn : ¬ n + 1 ≤ s.tokens.length := hv.1
    simp only [TokenSource.peekKind, TokenSource.peekTokens, first, toExcept, if_neg hn, hf] at h
    cases h
    exact ⟨rfl, hf⟩

theorem peekKind_eq_ok {n : Nat} {s s' : TokenStream} {k : Option Kind}
    (h : TokenSource.peekKind n s = (.ok k, s')) : s' = s ∧ s.Visible n ∧ k = s.kindAt n := by
  by_cases hv : s.Visible n
  · rw [peekKind_of_visible hv] at h
    cases h
    exact ⟨rfl, hv, rfl⟩
  · obtain ⟨e, he⟩ := peekKind_of_not_visible hv
    rw [he] at h
    cases h

end TokenStream

section About

variable {α : Type} {call : (r : Rule) → TokenStream → Except ParseError r.Node × TokenStream}

theorem Parser.unexpected_about {what : String} {s s' : TokenStream} {e : ParseError}
    (h : (Parser.unexpected what : Parser α).run call s = (.error e, s')) : s' = s ∧ e.About s := by
  obtain ⟨_ | ⟨t, ts⟩, _ | f⟩ := s
  · cases h
    exact ⟨rfl, Or.inr rfl, rfl⟩
  · cases h
    exact ⟨rfl, rfl⟩
  all_goals
    rw [run, peek_cons] at h
    cases h
    exact ⟨rfl, Or.inl (Nat.succ_pos _), rfl⟩

theorem Parser.Uses.careful_about (hc : ∀ r s e s', call r s = (.error e, s') → e.About s')
    {far : Nat} {orders clear : Bool} {p : Parser α} (h : p.Uses far orders clear)
    {s s' : TokenStream} {e : ParseError}
    (hclear : clear = true → s.kindAt 0 ≠ some (.symbol .rightBrace))
    (hrun : p.careful.run call s = (.error e, s')) : e.About s' := by
  induction p generalizing clear s with
  | done a => cases hrun
  | look n next ih =>
    rw [careful, run] at hrun
    rcases hk : TokenSource.peekKind n s with ⟨f | k, s₁⟩ <;> rw [hk] at hrun
    · obtain ⟨rfl, hf⟩ := TokenStream.peekKind_eq_error hk
      cases hrun
      exact hf
    · obtain ⟨rfl, -, rfl⟩ := TokenStream.peekKind_eq_ok hk
      refine ih _ (h.2 _) (fun hnew => ?_) hrun
      simp only [Bool.or_eq_true, Bool.and_eq_true, beq_iff_eq, bne_iff_ne] at hnew
      rcases hnew with hnew | ⟨rfl, hnew⟩
      · exact hclear hnew
      · exact hnew
  | skip next ih =>
    obtain ⟨_ | ⟨t, ts⟩, _ | f⟩ := s
    · exact ih h (by simp) hrun
    · cases hrun
      rfl
    all_goals
      rw [careful, run, TokenStream.pop_cons] at hrun
      exact ih h (by simp) hrun
  | expect kind what next ih =>
    obtain ⟨_ | ⟨t, ts⟩, f⟩ := s
    · obtain _ | f := f <;> cases hrun
      · exact ⟨Or.inr rfl, rfl⟩
      · rfl
    · rw [careful, run, TokenStream.peekKind_of_visible (Or.inl (Nat.succ_pos _))] at hrun
      change (if some t.kind = some kind then _ else _ : Parser α).run call _ = _ at hrun
      split at hrun
      · rename_i hk
        rw [run, TokenStream.next_cons] at hrun
        simp only [if_pos (Option.some.inj hk)] at hrun
        exact ih _ (h _) (by simp) hrun
      · obtain ⟨rfl, habout⟩ := unexpected_about hrun
        exact habout
  | unexpected what =>
    obtain ⟨rfl, habout⟩ := unexpected_about hrun
    exact habout
  | fail f =>
    cases hrun
    obtain ⟨rfl, -, htrue⟩ := h
    exact hclear htrue
  | call r next ih =>
    rw [careful, run] at hrun
    rcases hr : call r s with ⟨f | x, s₁⟩ <;> rw [hr] at hrun
    · cases hrun
      exact hc r s _ _ hr
    · exact ih x (h x) (by simp) hrun

theorem Rule.careful_about : ∀ (n : Nat) (r : Rule) (s : TokenStream) (e : ParseError)
    (s' : TokenStream), Rule.runCareful n r s = (.error e, s') → e.About s'
  | 0, _, _, _, _, h => by
    cases h
    trivial
  | n + 1, r, _, _, _, h => r.body_uses.careful_about (careful_about n) (by simp) h

end About

section Leaves

variable {call : (r : Rule) → TokenStream → Except ParseError r.Node × TokenStream}

theorem Parser.run_failure (hc : ∀ r s, (call r s).2.failure = s.failure) {α : Type} :
    ∀ (p : Parser α) (s : TokenStream), (p.run call s).2.failure = s.failure
  | .done _, _ => rfl
  | .look n next, s => by
    rw [Parser.run]
    rcases hk : TokenSource.peekKind n s with ⟨e | k, s₁⟩
    · obtain ⟨rfl, -⟩ := TokenStream.peekKind_eq_error hk
      rfl
    · obtain ⟨rfl, -⟩ := TokenStream.peekKind_eq_ok hk
      exact run_failure hc (next k) s₁
  | .skip next, ⟨[], none⟩ => run_failure hc next _
  | .skip next, ⟨[], some e⟩ => rfl
  | .skip next, ⟨t :: ts, f⟩ => by
    rw [Parser.run, TokenStream.pop_cons]
    exact run_failure hc next ⟨ts, f⟩
  | .expect kind what next, ⟨[], none⟩ => rfl
  | .expect kind what next, ⟨[], some e⟩ => rfl
  | .expect kind what next, ⟨t :: ts, f⟩ => by
    rw [Parser.run, TokenStream.next_cons]
    simp only []
    split
    · exact run_failure hc (next t.content) ⟨ts, f⟩
    · rfl
  | .unexpected what, s => by
    obtain ⟨r, hr⟩ := TokenStream.peek_eq s
    rw [Parser.run, hr]
    cases r <;> rfl
  | .fail _, _ => rfl
  | .call r next, s => by
    have hr := hc r s
    rw [Parser.run]
    generalize call r s = o at hr
    obtain ⟨_ | x, s₁⟩ := o
    · exact hr
    · exact (run_failure hc (next x) s₁).trans hr

/-- A parser takes tokens from the front, if the rules it calls do. -/
theorem Parser.exists_prepend (hc : ∀ r s, ∃ taken, s = (call r s).2.prepend taken) {α : Type}
    (p : Parser α) (s : TokenStream) : ∃ taken, s = (p.run call s).2.prepend taken := by
  have hsuffix : (p.run call s).2.tokens <:+ s.tokens := by
    refine run_suffix (fun r s => ?_) p s
    obtain ⟨taken, h⟩ := hc r s
    exact ⟨taken, (congrArg TokenStream.tokens h).symm⟩
  have hfailure : (p.run call s).2.failure = s.failure := by
    refine run_failure (fun r s => ?_) p s
    obtain ⟨taken, h⟩ := hc r s
    exact (congrArg TokenStream.failure h).symm
  obtain ⟨taken, htaken⟩ := hsuffix
  exact ⟨taken, by rw [TokenStream.prepend, htaken, hfailure]⟩

theorem Rule.run_prepend : ∀ (n : Nat) (r : Rule) (s : TokenStream),
    ∃ taken, s = (Rule.run n r s).2.prepend taken
  | 0, _, _ => ⟨[], rfl⟩
  | n + 1, r, s => Parser.exists_prepend (run_prepend n) r.body s

theorem Rule.runCareful_prepend : ∀ (n : Nat) (r : Rule) (s : TokenStream),
    ∃ taken, s = (Rule.runCareful n r s).2.prepend taken
  | 0, _, _ => ⟨[], rfl⟩
  | n + 1, r, s => Parser.exists_prepend (runCareful_prepend n) r.body.careful s

theorem Goal.exists_prepend (g : Goal) (l : Lexer) :
    ∃ taken, l.stream = (g.parse l).2.stream.prepend taken := by
  obtain ⟨taken, htaken⟩ := Parser.exists_prepend (fun r s => Rule.run_prepend (r.depth s) r s)
    g.parser l.stream
  change _ = (g.read l.stream).2.prepend taken at htaken
  rw [g.parse_stream] at htaken
  exact ⟨taken, htaken⟩

theorem parseAll_failure : ∀ (gs : List Goal) (l : Lexer),
    (parseAll l gs).2.stream.failure = l.stream.failure
  | [], _ => rfl
  | g :: gs, l => by
    obtain ⟨taken, htaken⟩ := g.exists_prepend l
    exact (parseAll_failure gs (g.parse l).2).trans (congrArg TokenStream.failure htaken).symm

theorem Lexer.ReachedOn.failure {text : String} {l : Lexer} (hl : l.ReachedOn text) :
    l.stream.failure = (TokenStream.ofText text).failure := by
  obtain ⟨gs, rfl⟩ := hl
  rw [parseAll_failure, Lexer.stream_ofText]

theorem Grammar.finish_leaves (s : TokenStream) : (finish.run Rule.read s).2 = s := by
  change ((Parser.look 0 _).run Rule.read s).2 = s
  by_cases hv : s.Visible 0
  · rw [Parser.run, TokenStream.peekKind_of_visible hv]
    rcases hk : s.kindAt 0 with _ | k
    · rfl
    · obtain ⟨r, hr⟩ := TokenStream.peek_eq s
      change ((Parser.unexpected _).run Rule.read s).2 = s
      rw [Parser.run, hr]
      cases r <;> rfl
  · obtain ⟨e, he⟩ := TokenStream.peekKind_of_not_visible hv
    rw [Parser.run, he]

/-- Where a parser stops on a stream if it looks before it takes: a parse that fails is about what
comes there. -/
def Parser.stop {α : Type} (p : Parser α) (s : TokenStream) : TokenStream :=
  (p.careful.run (Rule.runCareful (callBound s.tokens.length)) s).2

theorem Parser.stop_prepend {α : Type} (p : Parser α) (s : TokenStream) :
    ∃ taken, s = (p.stop s).prepend taken :=
  exists_prepend (Rule.runCareful_prepend _) p.careful s

/-- A parse that fails stops with the same error, and what it leaves is what comes there, or all of
that but the first token, which was required to be another. -/
theorem Parser.Guarded.careful_error {α : Type} {rank : Nat} {must : Bool} {p : Parser α}
    (h : p.Guarded rank must false false) (hr : rank ≤ 3) {s s' : TokenStream} {e : ParseError}
    (hrun : p.run Rule.read s = (.error e, s')) :
    p.careful.run (Rule.runCareful (callBound s.tokens.length)) s = (.error e, p.stop s)
      ∧ (p.stop s = s'
        ∨ ∃ what t, e = .expected what (some t.content) ∧ p.stop s = s'.prepend [t]) := by
  have hbound : 4 * s.tokens.length + rank ≤ callBound s.tokens.length := by
    rw [callBound]
    omega
  have hcareful := Parser.run_careful (Rule.run_careful (callBound s.tokens.length)) p s
  rw [h.run_eq hr hbound, hrun] at hcareful
  rw [stop]
  generalize p.careful.run (Rule.runCareful (callBound s.tokens.length)) s = o at hcareful ⊢
  generalize hplain : (Except.error e, s') = o' at hcareful
  rcases hcareful with ⟨o'⟩ | ⟨what, t, s₁⟩
  · cases hplain
    exact ⟨rfl, Or.inl rfl⟩
  · cases hplain
    exact ⟨rfl, Or.inr ⟨what, t, rfl, rfl⟩⟩

/-- A parse that fails is about what comes where the parser stops. -/
theorem Parser.Guarded.stop_about {α : Type} {rank far : Nat} {must orders : Bool} {p : Parser α}
    (h : p.Guarded rank must false false) (hr : rank ≤ 3) (hu : p.Uses far orders false)
    {s s' : TokenStream} {e : ParseError} (hrun : p.run Rule.read s = (.error e, s')) :
    e.About (p.stop s) :=
  hu.careful_about (Rule.careful_about _) (by simp) (h.careful_error hr hrun).1

end Leaves

/-- Whatever was asked of a parser before, a goal takes tokens from the front, and `finish` takes
none. If it fails over a token, that is the last one taken or the first one left; if it fails over
the end of the input, nothing is left, and the whole text was scanned; if it fails over a case after
the default one, no `}` comes next. What is asked next is read off the tokens that are left. -/
theorem goal_leaves {text : String} {l : Lexer} (hl : l.ReachedOn text) (g : Goal) :
    ∃ taken, l.stream = (g.parse l).2.stream.prepend taken
      ∧ (g = .finish → taken = [])
      ∧ (∀ what found, (g.parse l).1 = .error (.expected what (some found)) →
        ∃ t, t.content = found
          ∧ (taken.getLast? = some t ∨ (g.parse l).2.stream.tokens.head? = some t))
      ∧ (∀ what, (g.parse l).1 = .error (.expected what none) →
        (g.parse l).2.stream.tokens = [] ∧ ∃ ts, tokenize text = .ok ts)
      ∧ ((g.parse l).1 = .error .defaultNotLast →
        (g.parse l).2.stream.kindAt 0 ≠ some (.symbol .rightBrace))
      ∧ ∀ g' : Goal, g'.read (g.parse l).2.stream
        = ((g'.parse (g.parse l).2).1, (g'.parse (g.parse l).2).2.stream) := by
  obtain ⟨taken, htaken⟩ := g.exists_prepend l
  have hread := g.parse_stream l
  have hfails (e : ParseError) (he : (g.parse l).1 = .error e) :
      e.About (g.parser.stop l.stream) ∧ (g.parser.stop l.stream = (g.parse l).2.stream
        ∨ ∃ what t, e = .expected what (some t.content)
          ∧ g.parser.stop l.stream = (g.parse l).2.stream.prepend [t]) := by
    have hrun : g.parser.run Rule.read l.stream = (.error e, (g.parse l).2.stream) := he ▸ hread
    exact ⟨g.parser_guarded.stop_about (by decide) g.parser_uses hrun,
      (g.parser_guarded.careful_error (by decide) hrun).2⟩
  refine ⟨taken, htaken, ?_, fun what found he => ?_, fun what he => ?_, fun he => ?_,
    fun g' => g'.parse_stream _⟩
  · rintro rfl
    have hstay : (Goal.finish.read l.stream).2 = l.stream := Grammar.finish_leaves l.stream
    rw [hread] at hstay
    rw [show (Goal.finish.parse l).2.stream = l.stream from hstay] at htaken
    simpa [TokenStream.prepend] using congrArg TokenStream.tokens htaken
  · obtain ⟨⟨-, hfound⟩, hstop | ⟨_, t, heq, hstop⟩⟩ := hfails _ he
    · rw [hstop] at hfound
      obtain ⟨t, ht, rfl⟩ := Option.map_eq_some_iff.1 hfound.symm
      exact ⟨t, rfl, Or.inr ht⟩
    · -- what was left before the wrong token was taken first, and then that token
      obtain ⟨before, hbefore⟩ := g.parser.stop_prepend l.stream
      have hlast : taken = before ++ [t] := by
        rw [hstop, TokenStream.prepend_prepend, htaken] at hbefore
        exact List.append_cancel_right (congrArg TokenStream.tokens hbefore)
      cases heq
      exact ⟨t, rfl, Or.inl (by simp [hlast])⟩
  · obtain ⟨⟨hv, hfound⟩, hstop | ⟨_, t, heq, -⟩⟩ := hfails _ he
    · rw [hstop] at hv hfound
      have hnil : (g.parse l).2.stream.tokens = [] := by simpa using hfound.symm
      have hfailure : (TokenStream.ofText text).failure = none := by
        rw [← hl.failure, htaken]
        exact hv.resolve_left (by simp [hnil])
      exact ⟨hnil, _, by rw [tokenize, TokenStream.toExcept, hfailure]⟩
    · cases heq
  · obtain ⟨habout, hstop | ⟨_, t, heq, -⟩⟩ := hfails _ he
    · rwa [hstop] at habout
    · cases heq

/-- A semicolon that is no class name is taken, a name that is no statement is left, and the end of
the input is met after it. -/
theorem goal_leaves_mixed :
    let l := (parseAll (Lexer.ofText "class ; a") [.wholeClass]).2
    (Goal.wholeClass.parse (Lexer.ofText "class ; a")).1
        = .error (.expected "class name" (some ";"))
      ∧ (∃ taken t, (Lexer.ofText "class ; a").stream = l.stream.prepend taken
        ∧ t.content = ";" ∧ (taken.getLast? = some t ∨ l.stream.tokens.head? = some t))
      ∧ (Goal.finish.parse l).1 = .error (.expected "end of input" (some "a"))
      ∧ l.stream = (Goal.finish.parse l).2.stream
      ∧ (Goal.statement.parse l).1
        = .error (.expected "an assignment, '++' or '--'" none)
      ∧ (Goal.statement.parse l).2.stream.tokens = [] := by
  intro l
  have hstart : (Lexer.ofText "class ; a").ReachedOn "class ; a" := ⟨[], rfl⟩
  have hl : l.ReachedOn "class ; a" := ⟨[.wholeClass], rfl⟩
  have hclass : (Goal.wholeClass.parse (Lexer.ofText "class ; a")).1
      = .error (.expected "class name" (some ";")) := rfl
  have hfinish : (Goal.finish.parse l).1 = .error (.expected "end of input" (some "a")) := rfl
  have hstatement : (Goal.statement.parse l).1
      = .error (.expected "an assignment, '++' or '--'" none) := rfl
  obtain ⟨taken, htaken, -, hover, -⟩ := goal_leaves hstart .wholeClass
  obtain ⟨t, ht, hplace⟩ := hover _ _ hclass
  obtain ⟨none, hnone, hkept, -⟩ := goal_leaves hl .finish
  obtain ⟨-, -, -, -, hend, -⟩ := goal_leaves hl .statement
  refine ⟨hclass, ⟨taken, t, htaken, ht, hplace⟩, hfinish, ?_, hstatement, (hend _ hstatement).1⟩
  rw [hkept rfl] at hnone
  exact hnone

end ClassLang
