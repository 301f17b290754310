import ClassLang.Proofs.Careful
import ClassLang.Proofs.Lexemes

/-!
# Parsers that fail have begun something

What a parser has taken where it fails is the beginning of something that it reads: there are tokens
that would have completed it (`Parser.Begins`). They are plain ones, that can stand anywhere
between spaces (`Token.Alone`). `Parser.Stops` takes a run that fails apart, as `Parser.Takes` does
one that succeeds, and there is a rule for each way a parser is put together: a part that fails is
completed by itself, and then what comes after it is made up.
-/

namespace ClassLang

/-- A token that is scanned again by itself. -/
def Token.Alone (t : Token) : Prop :=
  tokenize t.content = .ok [t]

theorem alone_of_lexeme {k : Kind} {text : String} (h : Lexeme k text.toList) :
    Token.Alone ⟨k, text⟩ :=
  tokenize_content_iff.2 ⟨h.genuine, h.dotted_eq_false⟩

theorem alone_keyword (k : Keyword) : (Token.keyword k).Alone :=
  alone_of_lexeme (.keyword k)

theorem alone_symbol (y : Symbol) : (Token.symbol y).Alone :=
  alone_of_lexeme (.symbol y)

theorem alone_name : (Token.identifier "a").Alone :=
  alone_of_lexeme (@Lexeme.identifier 'a' [] rfl (by simp) fun k => by cases k <;> decide)

namespace Parser

theorem Takes.prepend {α : Type} {n : Nat} {p : Parser α} {s s' : TokenStream} {a : α}
    (h : p.Takes n s a s') : ∃ us, s = s'.prepend us := by
  have hprepend := exists_prepend (Rule.run_prepend n) p s
  rwa [h.2] at hprepend

/-- A careful parser fails on genuine tokens, with calls nested at most `n` deep. -/
def Stops {α : Type} (n : Nat) (p : Parser α) (s s' : TokenStream) : Prop :=
  s.Genuine ∧ ∃ e, p.careful.run (Rule.runCareful n) s = (.error e, s')

namespace Stops

variable {α β : Type} {n : Nat} {p : Parser α} {f : α → Parser β} {s s' : TokenStream} {k : Kind}

theorem bind (h : (p >>= f).Stops n s s') :
    p.Stops n s s' ∨ ∃ a s₁, p.Takes n s a s₁ ∧ (f a).Stops n s₁ s' := by
  obtain ⟨hg, e, h⟩ := h
  rw [careful_bind] at h
  change (p.careful.bind _).run _ s = _ at h
  rw [run_bind] at h
  have hplain := run_careful (Rule.run_careful n) p s
  rcases hp : p.careful.run (Rule.runCareful n) s with ⟨e' | a, s₁⟩ <;> rw [hp] at h hplain
  · cases h
    exact Or.inl ⟨hg, _, hp⟩
  · have htakes : p.Takes n s a s₁ := by
      generalize ho : p.run (Rule.run n) s = o at hplain
      cases hplain
      exact ⟨hg, ho⟩
    exact Or.inr ⟨a, s₁, htakes, htakes.genuine, e, h⟩

theorem not_pure {a : α} : ¬ (Pure.pure a : Parser α).Stops n s s' := by
  rintro ⟨-, e, h⟩
  cases h

theorem unexpected {what : String} (h : (Grammar.unexpected what : Parser α).Stops n s s') :
    s' = s := by
  obtain ⟨-, e, h⟩ := h
  exact (unexpected_about h).1

theorem fail {e : ParseError} (h : (Parser.fail e : Parser α).Stops n s s') : s' = s := by
  obtain ⟨-, e, h⟩ := h
  cases h
  rfl

theorem look {m : Nat} {f : Option Kind → Parser β} (h : (Grammar.look m >>= f).Stops n s s') :
    s' = s ∨ (f (s.kindAt m)).Stops n s s' := by
  obtain ⟨hg, e, h⟩ := h
  change (Parser.look m fun k => (f k).careful).run _ s = _ at h
  rw [run] at h
  rcases hk : TokenSource.peekKind m s with ⟨e' | k, s₁⟩ <;> rw [hk] at h
  · cases h
    exact Or.inl (TokenStream.peekKind_eq_error hk).1
  · obtain ⟨rfl, -, rfl⟩ := TokenStream.peekKind_eq_ok hk
    exact Or.inr ⟨hg, e, h⟩

theorem skip {f : Unit → Parser β} (h : (Grammar.skip >>= f).Stops n s s')
    (hk : s.kindAt 0 = some k) :
    ∃ t s₁, t.kind = k ∧ t.Genuine ∧ s = s₁.prepend [t] ∧ (f ()).Stops n s₁ s' := by
  obtain ⟨hg, e, h⟩ := h
  change (Parser.skip (f ()).careful).run _ s = _ at h
  obtain ⟨t, ht, hs⟩ := TokenStream.exists_prepend_of_kindAt hk
  generalize s.drop 1 = s₁ at hs
  subst hs
  rw [run, show s₁.prepend [t] = ⟨t :: s₁.tokens, s₁.failure⟩ from rfl, TokenStream.pop_cons] at h
  exact ⟨t, s₁, ht, hg t (by simp), rfl, fun u hu => hg u (by simp [hu]), e, h⟩

theorem expect {what : String} {f : String → Parser β}
    (h : (Grammar.expect k what >>= f).Stops n s s') :
    s' = s ∨ ∃ c s₁, Token.Genuine ⟨k, c⟩ ∧ s = s₁.prepend [⟨k, c⟩] ∧ (f c).Stops n s₁ s' := by
  obtain ⟨hg, e, h⟩ := h
  change (Parser.look 0 fun j => if j = some k
    then Parser.expect k what fun c => (f c).careful else .unexpected what).run _ s = _ at h
  rw [run] at h
  rcases hj : TokenSource.peekKind 0 s with ⟨e' | j, s₁⟩ <;> rw [hj] at h
  · cases h
    exact Or.inl (TokenStream.peekKind_eq_error hj).1
  · obtain ⟨rfl, -, rfl⟩ := TokenStream.peekKind_eq_ok hj
    by_cases hk : s₁.kindAt 0 = some k
    · obtain ⟨⟨k', c⟩, rfl, hs⟩ := TokenStream.exists_prepend_of_kindAt hk
      generalize s₁.drop 1 = s₂ at hs
      subst hs
      simp only [if_pos hk] at h
      rw [run, show s₂.prepend [⟨k', c⟩] = ⟨⟨k', c⟩ :: s₂.tokens, s₂.failure⟩ from rfl,
        TokenStream.next_cons] at h
      simp only [if_true] at h
      exact Or.inr ⟨c, s₂, hg _ (by simp), rfl, fun u hu => hg u (by simp [hu]), e, h⟩
    · simp only [if_neg hk] at h
      exact Or.inl (unexpected_about h).1

theorem call {r : Rule} (h : (Grammar.call r).Stops (n + 1) s s') : r.body.Stops n s s' := by
  obtain ⟨hg, e, h⟩ := h
  change (Grammar.call r).run _ s = _ at h
  rw [run_call] at h
  exact ⟨hg, e, h⟩

theorem call_zero {r : Rule} (h : (Grammar.call r).Stops 0 s s') : s' = s := by
  obtain ⟨-, e, h⟩ := h
  cases h
  rfl

end Stops

/-- There is something that some plain tokens spell. -/
def Fills {α : Type} (Q : α → List Token → Prop) : Prop :=
  ∃ a ws, (∀ t ∈ ws, t.Alone) ∧ Q a ws

theorem Fills.cons {α : Type} {Q : α → List Token → Prop} {t : Token} (ht : t.Alone)
    (h : Fills fun a us => Q a (t :: us)) : Fills Q := by
  obtain ⟨a, ws, hws, hQ⟩ := h
  exact ⟨a, t :: ws, List.forall_mem_cons.2 ⟨ht, hws⟩, hQ⟩

theorem Fills.nil {α : Type} {Q : α → List Token → Prop} {a : α} (h : Q a []) : Fills Q :=
  ⟨a, [], by simp, h⟩

theorem Fills.map {α β : Type} {Q : α → List Token → Prop} {R : β → List Token → Prop} {f : α → β}
    (h : Fills Q) (hf : ∀ a us, Q a us → R (f a) us) : Fills R := by
  obtain ⟨a, ws, hws, hQ⟩ := h
  exact ⟨f a, ws, hws, hf a ws hQ⟩

/-- The first of these tokens, if there is one, is of this sort. -/
def Heads (P : Option Kind → Prop) (us : List Token) : Prop :=
  ∀ t ∈ us.head?, P (some t.kind)

/-- Where a parser fails that comes before a token of this sort, what it has taken begins something
that `Q` says how to spell; and there is something of that kind. -/
structure Begins {α : Type} (n : Nat) (P : Option Kind → Prop) (Q : α → List Token → Prop)
    (p : Parser α) : Prop where
  fill : Fills Q
  stop : ∀ {s s'}, P (s.kindAt 0) → p.Stops n s s' →
    ∃ us, s = s'.prepend us ∧ Fills fun a ws => Q a (us ++ ws)

/-- Where a parser succeeds that comes before a token of the one sort, it has taken what `Q` says
and comes before a token of the other. -/
structure Spells {α : Type} (n : Nat) (P : Option Kind → Prop) (Q : α → List Token → Prop)
    (P' : α → Option Kind → Prop) (p : Parser α) : Prop where
  take : ∀ {s a s'}, P (s.kindAt 0) → p.Takes n s a s' →
    ∃ us, s = s'.prepend us ∧ Q a us ∧ P' a (s'.kindAt 0)

namespace Begins

variable {α β : Type} {n : Nat} {P : Option Kind → Prop} {Q Q' : α → List Token → Prop}
  {p : Parser α} {R : β → List Token → Prop}

theorem before {P' : Option Kind → Prop} (h : p.Begins n P Q) (hP : ∀ k, P' k → P k) :
    p.Begins n P' Q :=
  ⟨h.fill, fun hk => h.stop (hP _ hk)⟩

theorem imp (h : p.Begins n P Q) (hQ : ∀ a us, Q a us → Q' a us) : p.Begins n P Q' := by
  refine ⟨h.fill.map (f := id) hQ, fun hk hstop => ?_⟩
  obtain ⟨us, hs, hfill⟩ := h.stop hk hstop
  exact ⟨us, hs, hfill.map (f := id) fun a ws => hQ a (us ++ ws)⟩

/-- A parser that fails where it is has begun anything. -/
theorem of_stay (hfill : Fills Q) (h : ∀ {s s'}, P (s.kindAt 0) → p.Stops n s s' → s' = s) :
    p.Begins n P Q := by
  refine ⟨hfill, fun hk hstop => ⟨[], ?_, hfill⟩⟩
  rw [h hk hstop]
  rfl

theorem pure {a : α} (h : Q a []) : (Pure.pure a : Parser α).Begins n P Q :=
  of_stay (.nil h) fun _ hstop => absurd hstop Stops.not_pure

theorem unexpected {what : String} (hfill : Fills Q) :
    (Grammar.unexpected what : Parser α).Begins n P Q :=
  .of_stay hfill fun _ hstop => hstop.unexpected

theorem fail {e : ParseError} (hfill : Fills Q) : (Parser.fail e : Parser α).Begins n P Q :=
  .of_stay hfill fun _ hstop => hstop.fail

theorem look {f : Option Kind → Parser α} (hfill : Fills Q)
    (h : ∀ k, P k → (f k).Begins n (· = k) Q) : (Grammar.look 0 >>= f).Begins n P Q := by
  refine ⟨hfill, fun {s s'} hk hstop => ?_⟩
  rcases hstop.look with rfl | hstop
  · exact ⟨[], rfl, hfill⟩
  · exact (h _ hk).stop rfl hstop

theorem lookPast {f : Option Kind → Parser α} (hfill : Fills Q) (h : ∀ k, (f k).Begins n P Q) :
    (Grammar.look 1 >>= f).Begins n P Q := by
  refine ⟨hfill, fun {s s'} hk hstop => ?_⟩
  rcases hstop.look with rfl | hstop
  · exact ⟨[], rfl, hfill⟩
  · exact (h _).stop hk hstop

/-- What is begun after a token is begun with it. -/
theorem stop_cons {t : Token} {s s' : TokenStream}
    (h : p.Begins n (fun _ => True) fun a us => Q a (t :: us)) (hstop : p.Stops n s s') :
    ∃ us, s.prepend [t] = s'.prepend us ∧ Fills fun a ws => Q a (us ++ ws) := by
  obtain ⟨us, rfl, hfill⟩ := h.stop trivial hstop
  exact ⟨t :: us, by simp, hfill⟩

theorem skip_symbol {y : Symbol} {f : Unit → Parser α}
    (h : (f ()).Begins n (fun _ => True) fun a us => Q a (.symbol y :: us)) :
    (Grammar.skip >>= f).Begins n (· = some (.symbol y)) Q := by
  refine ⟨h.fill.cons (alone_symbol y), fun hk hstop => ?_⟩
  obtain ⟨t, s₁, ht, hg, rfl, hnext⟩ := hstop.skip hk
  obtain rfl := hg.eq_symbol ht
  exact h.stop_cons hnext

theorem skip_keyword {y : Keyword} {f : Unit → Parser α}
    (h : (f ()).Begins n (fun _ => True) fun a us => Q a (.keyword y :: us)) :
    (Grammar.skip >>= f).Begins n (· = some (.keyword y)) Q := by
  refine ⟨h.fill.cons (alone_keyword y), fun hk hstop => ?_⟩
  obtain ⟨t, s₁, ht, hg, rfl, hnext⟩ := hstop.skip hk
  obtain rfl := hg.eq_keyword ht
  exact h.stop_cons hnext

theorem expect {k : Kind} {what c : String} {f : String → Parser α} (hc : Token.Alone ⟨k, c⟩)
    (h : ∀ c, Token.Genuine ⟨k, c⟩ →
      (f c).Begins n (fun _ => True) fun a us => Q a (⟨k, c⟩ :: us)) :
    (Grammar.expect k what >>= f).Begins n P Q := by
  have hfill : Fills Q := (h c (tokenize_content_iff.1 hc).1).fill.cons hc
  refine ⟨hfill, fun {s s'} hk hstop => ?_⟩
  rcases hstop.expect with rfl | ⟨c, s₁, hg, rfl, hnext⟩
  · exact ⟨[], rfl, hfill⟩
  · exact (h c hg).stop_cons hnext

theorem name {what : String} {f : String → Parser α}
    (h : ∀ c, (f c).Begins n (fun _ => True) fun a us => Q a (.identifier c :: us)) :
    (Grammar.name what >>= f).Begins n P Q :=
  .expect alone_name fun c _ => h c

theorem keyword {k : Keyword} {what : String} {f : Unit → Parser α}
    (h : (f ()).Begins n (fun _ => True) fun a us => Q a (.keyword k :: us)) :
    (Grammar.keyword k what >>= f).Begins n P Q := by
  refine .expect (f := fun _ => f ()) (alone_keyword k) fun c hg => ?_
  obtain rfl : c = k.text := congrArg Token.content (hg.eq_keyword rfl)
  exact h

theorem symbol {y : Symbol} {purpose : String} {f : Unit → Parser α}
    (h : (f ()).Begins n (fun _ => True) fun a us => Q a (.symbol y :: us)) :
    (Grammar.symbol y purpose >>= f).Begins n P Q := by
  refine .expect (f := fun _ => f ()) (alone_symbol y) fun c hg => ?_
  obtain rfl : c = y.text := congrArg Token.content (hg.eq_symbol rfl)
  exact h

theorem eat_symbol {y : Symbol} {f : Bool → Parser α}
    (ht : (f true).Begins n (fun _ => True) fun a us => Q a (.symbol y :: us))
    (hf : (f false).Begins n P Q) : (Grammar.eat y >>= f).Begins n P Q := by
  rw [bind_eat]
  refine .look hf.fill fun k hk => ?_
  split
  · rename_i hy
    subst hy
    exact .skip_symbol ht
  · exact hf.before fun _ h => h ▸ hk

theorem eat_keyword {y : Keyword} {f : Bool → Parser α}
    (ht : P (some y) → (f true).Begins n (fun _ => True) fun a us => Q a (.keyword y :: us))
    (hf : (f false).Begins n P Q) : (Grammar.eat y >>= f).Begins n P Q := by
  rw [bind_eat]
  refine .look hf.fill fun k hk => ?_
  split
  · rename_i hy
    subst hy
    exact .skip_keyword (ht hk)
  · exact hf.before fun _ h => h ▸ hk

/-- A part that fails is completed, and what comes after it is made up. -/
theorem bind {P' : α → Option Kind → Prop} (hp : p.Begins n P Q) (hs : p.Spells n P Q P')
    {f : α → Parser β} (hf : ∀ a us, Q a us → (f a).Begins n (P' a) fun b vs => R b (us ++ vs)) :
    (p >>= f).Begins n P R := by
  have hfill (us : List Token) (h : Fills fun a ws => Q a (us ++ ws)) :
      Fills fun b ws => R b (us ++ ws) := by
    obtain ⟨a, ws, hws, ha⟩ := h
    obtain ⟨b, vs, hvs, hb⟩ := (hf a _ ha).fill
    exact ⟨b, ws ++ vs, List.forall_mem_append.2 ⟨hws, hvs⟩, by simpa using hb⟩
  refine ⟨hfill [] hp.fill, fun hk hstop => ?_⟩
  rcases hstop.bind with hpart | ⟨a, s₁, ha, hnext⟩
  · obtain ⟨us, rfl, h⟩ := hp.stop hk hpart
    exact ⟨us, rfl, hfill us h⟩
  · obtain ⟨us, rfl, hQ, hP'⟩ := hs.take hk ha
    obtain ⟨vs, rfl, b, ws, hws, hb⟩ := (hf a us hQ).stop hP' hnext
    exact ⟨us ++ vs, by simp, b, ws, hws, by simpa using hb⟩

/-- What is begun before a token of some sort begins with one, if what is made up does. -/
theorem first (h : p.Begins n P Q) (hfill : Fills fun a ws => Q a ws ∧ Heads P ws) :
    p.Begins n P fun a us => Q a us ∧ Heads P us := by
  refine ⟨hfill, fun {s s'} hk hstop => ?_⟩
  obtain ⟨_ | ⟨t, us⟩, rfl, a, ws, hws, hQ⟩ := h.stop hk hstop
  · exact ⟨[], rfl, hfill⟩
  · refine ⟨t :: us, rfl, a, ws, hws, hQ, fun u hu => ?_⟩
    cases hu
    exact hk

end Begins

theorem Spells.of_takes {α : Type} {n : Nat} {P : Option Kind → Prop} {Q : α → List Token → Prop}
    {p : Parser α} (h : ∀ {s a s'}, p.Takes n s a s' → ∃ us, s = s'.prepend us ∧ Q a us) :
    p.Spells n P Q fun _ _ => True := by
  refine ⟨fun _ htake => ?_⟩
  obtain ⟨us, hs, hQ⟩ := h htake
  exact ⟨us, hs, hQ, trivial⟩

theorem Spells.first {α : Type} {n : Nat} {P : Option Kind → Prop} {Q : α → List Token → Prop}
    {P' : α → Option Kind → Prop} {p : Parser α} (h : p.Spells n P Q P') :
    p.Spells n P (fun a us => Q a us ∧ Heads P us) P' := by
  refine ⟨fun hk htake => ?_⟩
  obtain ⟨us, rfl, hQ, hP'⟩ := h.take hk htake
  refine ⟨us, rfl, ⟨hQ, fun t ht => ?_⟩, hP'⟩
  obtain ⟨us, rfl⟩ := List.head?_eq_some_iff.1 ht
  exact hk

end Parser

/-- Tokens that spell what a rule yields, so that it is well formed. -/
def Rule.Spelled : (r : Rule) → r.Node → List Token → Prop
  | .modifiers, ms, us => us = (Layout.modifiers ms).tokens
  | .typeNames, ns, us => ns ≠ [] ∧ us
    = (Layout.commaSeparated (ns.map fun n => [.name n])).tokens ++ [.symbol .greater]
  | .parameters, ps, us => ps ≠ [] ∧ us
    = (Layout.commaSeparated (ps.map Parameter.layout)).tokens ++ [.symbol .rightParen]
  | .expression, e, us => us = e.layout.tokens
  | .memberAccess, m, us => us = m.layout.tokens
  | .arguments, es, us => es ≠ [] ∧ us = (argumentsLayout es).tokens ++ [.symbol .rightParen]
  | .conditions, k, us => us = k.layout.tokens ∧ k.WellFormed
  | .statement, x, us => us = x.layout.tokens ∧ x.WellFormed
  | .statements, ss, us => us = (statementsLayout ss).tokens ∧ StatementsWellFormed ss
  | .ifChain, i, us => us = i.layout.tokens ∧ i.WellFormed
  | .cases, cs, us => us = cs.layout.tokens ∧ cs.WellFormed
  | .caseBody, ss, us =>
    us = (statementsLayout ss).tokens ∧ StatementsWellFormed ss ∧ LeavesLast ss
  | .members, ms, us => MembersWritten ms us ∧ ∀ m ∈ ms, m.WellFormed

theorem Rule.Accounts.spelled {r : Rule} {s s' : TokenStream} {x : r.Node}
    (h : r.Accounts s x s') : ∃ us, s = s'.prepend us ∧ r.Spelled x us := by
  cases r with
  | modifiers | expression | memberAccess => exact ⟨_, h, rfl⟩
  | typeNames | parameters | arguments => exact ⟨_, h.2, h.1, rfl⟩
  | conditions | statements | cases | caseBody => exact ⟨_, h.1, rfl, h.2⟩
  | statement | ifChain => exact ⟨_, h.1, rfl, h.2.1⟩
  | members =>
    obtain ⟨⟨us, hus, hs⟩, hwf⟩ := h
    exact ⟨us, hs, hus, hwf⟩

theorem Rule.spells (n : Nat) (r : Rule) {P : Option Kind → Prop} :
    (Grammar.call r).Spells n P r.Spelled fun _ _ => True :=
  .of_takes fun h => (Rule.accounts n h).spelled

/-- A variable with a short name. -/
def MemberAccess.plain : MemberAccess :=
  .single (.variable "a")

/-- A variable with a short name, as an expression. -/
def Expression.plain : Expression :=
  .single (.access .plain)

/-- A comparison of two variables. -/
def Clause.plain : Clause :=
  .comparison .plain .less .plain

/-- A variable with a short name, as a statement. -/
def Statement.plain : Statement :=
  .access .plain

@[simp]
theorem Expression.plain_tokens : Expression.plain.layout.tokens = [.identifier "a"] := rfl

@[simp]
theorem Clause.plain_tokens : Clause.plain.layout.tokens
    = [.identifier "a", .symbol .less, .identifier "a"] := rfl

open Parser.Fills in
/-- Something that a rule yields, with plain tokens that spell it. -/
theorem Rule.fills : ∀ r : Rule, Parser.Fills r.Spelled
  | .modifiers => nil (a := []) rfl
  | .typeNames => cons alone_name (cons (alone_symbol .greater) (nil (a := ["a"]) ⟨by simp, rfl⟩))
  | .parameters => cons alone_name (cons alone_name (cons (alone_symbol .rightParen)
    (nil (a := [⟨"a", [], "a"⟩]) ⟨by simp, rfl⟩)))
  | .expression => cons alone_name (nil (a := .plain) rfl)
  | .memberAccess => cons alone_name (nil (a := .plain) rfl)
  | .arguments => cons alone_name (cons (alone_symbol .rightParen)
    (nil (a := [.plain]) ⟨by simp, rfl⟩))
  | .conditions => cons alone_name (cons (alone_symbol .less) (cons alone_name
    (nil (a := .single .plain) ⟨rfl, rfl⟩)))
  | .statement =>
    cons alone_name (cons (alone_symbol .semicolon) (nil (a := .plain) ⟨rfl, trivial⟩))
  | .statements => nil (a := []) ⟨rfl, trivial⟩
  | .ifChain => ⟨.only false (.single .plain) (.body []), _, by
      simp [If.layout, Conditions.headLayout, Conditions.layout, Block.layout, statementsLayout,
        alone_keyword, alone_symbol, alone_name], rfl, rfl, trivial⟩
  | .cases => cons (alone_keyword .defaultKw) (cons (alone_symbol .colon)
    (nil (a := .default []) ⟨rfl, trivial, by simp [LeavesLast]⟩))
  | .caseBody => nil (a := []) ⟨rfl, trivial, by simp [LeavesLast]⟩
  | .members => nil (a := []) ⟨.nil, by simp⟩

/-- Rules that are called, nested at most `n` deep, begin what they are to yield. -/
def RulesBegin (n : Nat) : Prop :=
  ∀ r, (Grammar.call r).Begins n (fun _ => True) r.Spelled

theorem Parser.Begins.call {α : Type} {n : Nat} {P : Option Kind → Prop}
    {Q : α → List Token → Prop} (ih : RulesBegin n) {r : Rule} {f : r.Node → Parser α}
    (hf : ∀ x us, r.Spelled x us → (f x).Begins n (fun _ => True) fun a vs => Q a (us ++ vs)) :
    (Grammar.call r >>= f).Begins n P Q :=
  .bind ((ih r).before fun _ _ => trivial) (r.spells n) hf

end ClassLang
