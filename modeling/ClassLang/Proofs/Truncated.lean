import ClassLang.Proofs.Followed
import ClassLang.Proofs.Starved

/-!
# Texts that end too early

The depth that calls are given is never what a parse fails for (`Parser.Guarded.read_ne_exhausted`).
So a text that has the first tokens of a class and not all of them fails over the end of the input,
unless it ends after a `break` or a `return` in a default case or after a name that follows
modifiers (`parse_truncated`).
-/

namespace ClassLang

open TokenStream

section Exhausted

variable {call : (r : Rule) → TokenStream → Except ParseError r.Node × TokenStream} {α : Type}
  {rank far bound : Nat} {must orders : Bool}

/-- A guarded parser does not run out of depth, if the rules that it can reach do not. -/
theorem Parser.Guarded.run_ne_exhausted (hc : Shortens call)
    (hne : ∀ r s, s.tokens.length ≤ bound → s.tokens.length < bound ∨ r.rank < rank →
      (call r s).1 ≠ .error .exhausted) {p : Parser α} {seen taken clear : Bool}
    (h : p.Guarded rank must seen taken) (hu : p.Uses far orders clear) {s : TokenStream}
    (hs : seen = true → s.tokens ≠ []) (hb : s.tokens.length ≤ bound)
    (ht : taken = true → s.tokens.length < bound) : (p.run call s).1 ≠ .error .exhausted := by
  induction p generalizing seen taken clear s with
  | done a => rintro ⟨⟩
  | look n next ih =>
    by_cases hv : s.Visible n
    · rw [Parser.run, peekKind_of_visible hv]
      exact ih _ (h.2 _) (hu.2 _) (ne_nil_of_seen hs) hb ht
    · obtain ⟨e, he⟩ := peekKind_of_not_visible hv
      rw [Parser.run, he]
      rintro ⟨⟩
  | skip next ih =>
    obtain ⟨_ | ⟨t, ts⟩, f⟩ := s
    · exact absurd rfl (hs h.1)
    · rw [Parser.run, pop_cons]
      have hlt : ts.length < bound := hb
      exact ih h.2 hu (by rintro ⟨⟩) (Nat.le_of_lt hlt) fun _ => hlt
  | expect kind what next ih =>
    obtain ⟨_ | ⟨t, ts⟩, _ | e⟩ := s
    · rintro ⟨⟩
    · rintro ⟨⟩
    all_goals
      rw [Parser.run, next_cons]
      simp only []
      split
      · have hlt : ts.length < bound := hb
        exact ih _ (h _) (hu _) (by rintro ⟨⟩) (Nat.le_of_lt hlt) fun _ => hlt
      · rintro ⟨⟩
  | unexpected what =>
    obtain ⟨r, hp⟩ := peek_eq s
    rw [Parser.run, hp]
    rcases r with _ | _ <;> rintro ⟨⟩
  | fail e =>
    obtain ⟨rfl, -⟩ := hu
    rintro ⟨⟩
  | call r next ih =>
    have hr := hne r s hb (h.1.imp ht id)
    rw [Parser.run]
    rcases hx : call r s with ⟨_ | x, s₁⟩ <;> rw [hx] at hr
    · exact fun he => hr (by rw [← Except.error.inj he])
    · have hle := Nat.le_trans (hc r s x s₁ hx).1 hb
      exact ih x (h.2 x) (hu x) (by rintro ⟨⟩) hle (lt_of_taken hc hx hb ht)

theorem Rule.run_ne_exhausted : ∀ (n : Nat) (r : Rule) (s : TokenStream), r.depth s ≤ n →
    (Rule.run n r s).1 ≠ .error .exhausted
  | 0, _, _, h => absurd h (Nat.not_succ_le_zero _)
  | n + 1, r, s, h => by
    refine r.body_guarded.run_ne_exhausted (run_shortens n) (fun r' s' hb hlt => ?_) r.body_uses
      nofun (Nat.le_refl _) nofun
    refine run_ne_exhausted n r' s' ?_
    have := r'.rank_le
    simp only [depth] at h ⊢
    omega

/-- Whatever depth the calls take, it is not the depth that a parse fails for. -/
theorem Parser.Guarded.read_ne_exhausted {p : Parser α} (h : p.Guarded rank must false false)
    (hu : p.Uses far orders false) (s : TokenStream) :
    (p.run Rule.read s).1 ≠ .error .exhausted :=
  h.run_ne_exhausted (fun r s => Rule.run_shortens _ r s)
    (fun r s _ _ => Rule.run_ne_exhausted _ r s (Nat.le_refl _)) hu nofun (Nat.le_refl _) nofun

end Exhausted

theorem ParseError.message_ended (what : String) :
    message (.expected what none) = "expected " ++ what ++ ", " ++ "found end of input" := by
  rw [String.append_assoc]
  rfl

/-- A text that has the first tokens of a class and not all of them is none, and its parse fails
over the end of the input, or in one of two ways misses it. -/
theorem parse_truncated {text cut : String} {c : Class} {ts : List Token} {k : Nat}
    (h : parse text = .ok c) (htext : tokenize text = .ok ts) (hk : k < ts.length)
    (hcut : tokenize cut = .ok (ts.take k)) :
    ∃ e, parse cut = .error e
      ∧ ((∃ start, e.message = start ++ "found end of input") ∨ e.MissesEnd (ts.take k)) := by
  have hstream := ofText_of_tokenize hcut
  have hgenuine := ofText_genuine cut
  rw [parse_eq, ofText_of_tokenize htext] at h
  rw [hstream] at hgenuine
  have hmissing : ts.drop k ≠ [] := mt List.drop_eq_nil_iff.1 (Nat.not_le.2 hk)
  obtain ⟨u, us, hus⟩ := List.exists_cons_of_ne_nil hmissing
  have hsplit : ts.take k ++ u :: us = ts := hus ▸ List.take_append_drop k ts
  rw [← hsplit] at h
  -- the tokens that are there are no class, since with those that are missing they would be none
  have hne (d : Class) : parse cut ≠ .ok d := by
    intro hd
    obtain ⟨⟨vs, hvs, hcut'⟩, hwf⟩ := Class.accounts_of_parse hd
    rw [hstream] at hcut'
    cases hcut'
    rw [hvs.wholeText_run_before hwf u us none] at h
    cases h
  obtain ⟨e, he⟩ : ∃ e, parse cut = .error e := by
    rcases hparse : parse cut with e | d
    · exact ⟨e, rfl⟩
    · exact absurd hparse (hne d)
  refine ⟨e, he, ?_⟩
  rw [parse_eq, hstream] at he
  have hstarved := Grammar.wholeText_guarded.read_starved (by decide) Grammar.wholeText_uses
    hgenuine (u :: us)
  have hdepth := Grammar.wholeText_guarded.read_ne_exhausted
    (Grammar.wholeText_uses : Grammar.wholeText.Uses 0 false false) ⟨ts.take k, none⟩
  generalize Grammar.wholeText.run Rule.read (⟨ts.take k, none⟩ : TokenStream) = o
    at hstarved he hdepth
  generalize Grammar.wholeText.run Rule.read (⟨ts.take k ++ u :: us, none⟩ : TokenStream) = o'
    at hstarved h
  rcases hstarved with ⟨a, t, rest⟩ | ⟨e', s, s'⟩ | ⟨a | ⟨hshort, s⟩, o'⟩
  · cases he
  · cases h
  · cases he
  · cases he
    rcases hshort fun hexhausted => hdepth (by rw [hexhausted]) with ⟨what, rfl⟩ | hmisses
    · exact Or.inl ⟨_, ParseError.message_ended what⟩
    · exact Or.inr hmisses

/-- The `;` is missing after a `break`, and all that comes after it. -/
theorem parse_truncated_break :
    let text := "class A { B func f() { switch (a) { default: break; } } }"
    let cut := String.ofList (text.toList.take 50)
    let x := Statement.switch (.single (.access (.single (.variable "a")))) (.default [.breakOut])
    let ts : List Token := [.keyword .classKw, .identifier "A", .symbol .leftBrace,
      .identifier "B", .keyword .funcKw, .identifier "f", .symbol .leftParen, .symbol .rightParen,
      .symbol .leftBrace, .keyword .switchKw, .symbol .leftParen, .identifier "a",
      .symbol .rightParen, .symbol .leftBrace, .keyword .defaultKw, .symbol .colon,
      .keyword .breakKw, .symbol .semicolon, .symbol .rightBrace, .symbol .rightBrace,
      .symbol .rightBrace]
    parse text = .ok ⟨[], "A", [], none, [], [], [⟨[], "B", "f", [], some [x]⟩], []⟩
      ∧ tokenize text = .ok ts
      ∧ 17 < ts.length
      ∧ tokenize cut = .ok (ts.take 17)
      ∧ ∃ e, parse cut = .error e
        ∧ ((∃ start, e.message = start ++ "found end of input") ∨ e.MissesEnd (ts.take 17)) := by
  refine ⟨rfl, ?htext, by decide, ?hcut, parse_truncated rfl ?htext (by decide) ?hcut⟩
  case htext => exact tokenize_of_nextTokens (n := 22) rfl (by decide)
  case hcut => exact tokenize_of_nextTokens (n := 18) rfl (by decide)

/-- The end of the input is missed after the last `break` of a default case, and after a type that
follows modifiers. -/
theorem parse_truncated_unseen :
    let switchText := "class A { B func f() { switch (a) { default: break; } } }"
    let switchCut := String.ofList (switchText.toList.take 51)
    let declareText := "class A { B func f() { mut T t; } }"
    let declareCut := String.ofList (declareText.toList.take 28)
    let x := Statement.switch (.single (.access (.single (.variable "a")))) (.default [.breakOut])
    let ts : List Token := [.keyword .classKw, .identifier "A", .symbol .leftBrace,
      .identifier "B", .keyword .funcKw, .identifier "f", .symbol .leftParen, .symbol .rightParen,
      .symbol .leftBrace]
    let us : List Token := [.keyword .switchKw, .symbol .leftParen, .identifier "a",
      .symbol .rightParen, .symbol .leftBrace, .keyword .defaultKw, .symbol .colon,
      .keyword .breakKw, .symbol .semicolon]
    (parse switchText = .ok ⟨[], "A", [], none, [], [], [⟨[], "B", "f", [], some [x]⟩], []⟩
      ∧ tokenize switchText
        = .ok (ts ++ us ++ [.symbol .rightBrace, .symbol .rightBrace, .symbol .rightBrace])
      ∧ tokenize switchCut = .ok (ts ++ us)
      ∧ parse switchCut = .error .defaultNotLast
      ∧ ∀ start, ParseError.message .defaultNotLast ≠ start ++ "found end of input")
    ∧ parse declareText = .ok ⟨[], "A", [], none, [], [],
        [⟨[], "B", "f", [], some [.declare ⟨[.mutMod], ⟨"T", [], "t", none⟩⟩]⟩], []⟩
      ∧ tokenize declareText = .ok (ts ++ [.keyword .mutKw, .identifier "T", .identifier "t",
        .symbol .semicolon, .symbol .rightBrace, .symbol .rightBrace])
      ∧ tokenize declareCut = .ok (ts ++ [.keyword .mutKw, .identifier "T"])
      ∧ parse declareCut
        = .error (.expected "a variable declaration after the modifiers" (some "T"))
      ∧ ∀ start, ParseError.message (.expected "a variable declaration after the modifiers"
        (some "T")) ≠ start ++ "found end of input" := by
  refine ⟨⟨rfl, tokenize_of_nextTokens (n := 22) rfl (by decide),
    tokenize_of_nextTokens (n := 19) rfl (by decide), rfl, fun start h => ?_⟩, rfl,
    tokenize_of_nextTokens (n := 16) rfl (by decide),
    tokenize_of_nextTokens (n := 12) rfl (by decide), rfl, fun start h => ?_⟩
  all_goals
    have hlast := congrArg (fun message => message.toList.getLast?) h
    simp [ParseError.message] at hlast

end ClassLang
