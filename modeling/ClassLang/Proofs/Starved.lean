import ClassLang.Proofs.Accounted
import ClassLang.Proofs.Cut
import ClassLang.Proofs.Given.Control
import ClassLang.Proofs.Uses

/-!
# Tokens that run out

A run on some tokens is set beside one on the same tokens and more (`Parser.Starves`). Both do the
same as long as the end of the input is not met, and where it is met the parse fails over it, but in
two places (`ParseError.MissesEnd`). The look past the next token matters only where the next one is
the last (`Parser.Starves.lookPast`): then a name is taken for a variable, and for no declaration
after modifiers.
-/

namespace ClassLang

open TokenStream

/-- How a parse fails that ran out of these tokens and does not say so. -/
inductive ParseError.MissesEnd (ts : List Token) : ParseError → Prop
  /-- What follows a default case is taken for another case also where nothing does. -/
  | default (ss : List Statement) {x : Statement} (hx : x.leaves = true)
    (h : (Cases.default (ss ++ [x])).layout.tokens <:+ ts) : MissesEnd ts .defaultNotLast
  /-- A name is no declaration unless another name or a `<` is seen after it. -/
  | modified (m : Modifier) (n : String) (h : [.keyword m.keyword, .identifier n] <:+ ts) :
    MissesEnd ts (.expected "a variable declaration after the modifiers" (some n))

/-- How a parse fails that ran out of these tokens. -/
def ParseError.Short (ts : List Token) (e : ParseError) : Prop :=
  (∃ what, e = .expected what none) ∨ e.MissesEnd ts

/-- What comes of a parser that has taken all these tokens and met the end of the input. -/
inductive Ended {α : Type} (ts : List Token) : Except ParseError α × TokenStream → Prop
  | done (a : α) : Ended ts (.ok a, ⟨[], none⟩)
  | failed {e : ParseError} (h : e ≠ .exhausted → e.Short ts) (s : TokenStream) :
    Ended ts (.error e, s)

/-- What comes of a parser where the tokens end, beside what comes of it where others follow. -/
inductive Starved {α : Type} (us ts : List Token) :
    Except ParseError α × TokenStream → Except ParseError α × TokenStream → Prop
  | same (a : α) (t : Token) (rest : List Token) :
    Starved us ts (.ok a, ⟨t :: rest, none⟩) (.ok a, ⟨t :: rest ++ us, none⟩)
  | wrong (e : ParseError) (s s' : TokenStream) : Starved us ts (.error e, s) (.error e, s')
  | ended {o : Except ParseError α × TokenStream} (h : Ended ts o)
    (o' : Except ParseError α × TokenStream) : Starved us ts o o'

namespace Parser

/-- After the tokens `before`, the parser meets the end of the input. -/
def Ends {α : Type} (n : Nat) (before : List Token) (p : Parser α) (ts : List Token) : Prop :=
  Ended (before ++ ts) (p.run (Rule.run n) ⟨ts, none⟩)

/-- After the tokens `before`, the parser does the same on these tokens as where `us` follow them,
unless it meets the end of the input. -/
def Starves {α : Type} (n : Nat) (us before : List Token) (p : Parser α) : List Token → Prop
  | [] => p.Ends n before []
  | t :: ts => (∀ u ∈ t :: ts, u.Genuine) → Starved us (before ++ t :: ts)
      (p.run (Rule.run n) ⟨t :: ts, none⟩) (p.run (Rule.run n) ⟨t :: ts ++ us, none⟩)

section Rules

variable {α β : Type} {n : Nat} {us before ts : List Token} {p : Parser α}

theorem Ends.bind (hp : p.Ends n before ts) {f : α → Parser β}
    (hf : ∀ a, p.run (Rule.run n) (⟨ts, none⟩ : TokenStream) = (.ok a, ⟨[], none⟩) →
      (f a).Ends n (before ++ ts) []) : (p >>= f).Ends n before ts := by
  unfold Ends at hp
  change Ended _ ((p.bind f).run _ _)
  rw [run_bind]
  generalize p.run (Rule.run n) (⟨ts, none⟩ : TokenStream) = o at hp hf
  rcases hp with a | ⟨h, s⟩
  · simpa [Ends] using hf a rfl
  · exact .failed h s

theorem Ends.look {m : Nat} {f : Option Kind → Parser β}
    (h : (f ((⟨ts, none⟩ : TokenStream).kindAt m)).Ends n before ts) :
    (Grammar.look m >>= f).Ends n before ts := by
  change Ended _ ((Parser.look m f).run _ _)
  rw [run, peekKind_of_visible (Or.inr rfl)]
  exact h

theorem Ends.name {t : Token} (hk : t.kind = .identifier) {what : String} {f : String → Parser β}
    (h : (f t.content).Ends n (before ++ [t]) []) :
    (Grammar.name what >>= f).Ends n before [t] := by
  change Ended _ ((Parser.expect .identifier what f).run _ _)
  rw [run, next_cons]
  simp only [hk, if_true]
  simpa [Ends] using h

namespace Starves

theorem bind (hp : p.Starves n us before ts) {f : α → Parser β}
    (hf : ∀ a vs rest, ts = vs ++ rest → p.Takes n ⟨ts, none⟩ a ⟨rest, none⟩ →
      (f a).Starves n us (before ++ vs) rest) : (p >>= f).Starves n us before ts := by
  rcases ts with _ | ⟨t, ts⟩
  · refine Ends.bind hp fun a ha => ?_
    exact hf a [] [] rfl ⟨by simp [TokenStream.Genuine], ha⟩
  · intro hg
    have hrun := hp hg
    generalize ho : p.run (Rule.run n) (⟨t :: ts, none⟩ : TokenStream) = o at hrun
    generalize ho' : p.run (Rule.run n) (⟨t :: ts ++ us, none⟩ : TokenStream) = o' at hrun
    rcases hrun with ⟨a, u, rest⟩ | ⟨e, s, s'⟩ | ⟨hends⟩
    · have hsuffix := Parser.run_suffix (Rule.run_suffix n) p ⟨t :: ts, none⟩
      rw [ho] at hsuffix
      obtain ⟨vs, hvs⟩ : ∃ vs, vs ++ u :: rest = t :: ts := hsuffix
      have hnext := hf a vs (u :: rest) hvs.symm ⟨hg, ho⟩ fun v hv =>
        hg v (hvs ▸ List.mem_append_right vs hv)
      rw [List.append_assoc, hvs] at hnext
      change Starved _ _ ((p.bind f).run _ _) ((p.bind f).run _ _)
      rwa [run_bind, run_bind, ho, ho']
    · change Starved _ _ ((p.bind f).run _ _) ((p.bind f).run _ _)
      rw [run_bind, run_bind, ho, ho']
      exact .wrong e s s'
    · subst ho
      exact .ended (Ends.bind hends fun a ha => hf a (t :: ts) [] (by simp) ⟨hg, ha⟩) _

theorem starved (h : p.Starves n us before ts) (hg : ∀ u ∈ ts, u.Genuine) :
    Starved us (before ++ ts) (p.run (Rule.run n) ⟨ts, none⟩)
      (p.run (Rule.run n) ⟨ts ++ us, none⟩) := by
  rcases ts with _ | ⟨t, ts⟩
  · exact .ended h _
  · exact h hg

/-- What comes of it once a token is taken. -/
theorem cons {t : Token} (h : p.Starves n us (before ++ [t]) ts) (hg : ∀ u ∈ t :: ts, u.Genuine) :
    Starved us (before ++ t :: ts) (p.run (Rule.run n) ⟨ts, none⟩)
      (p.run (Rule.run n) ⟨ts ++ us, none⟩) := by
  have hrest := h.starved (List.forall_mem_cons.1 hg).2
  rwa [List.append_assoc, List.singleton_append] at hrest

theorem pure {a : α} : (Pure.pure a : Parser α).Starves n us before ts := by
  rcases ts with _ | ⟨t, ts⟩
  · exact .done a
  · exact fun _ => .same a t ts

theorem fail {e : ParseError} {t : Token} :
    (Parser.fail e : Parser α).Starves n us before (t :: ts) :=
  fun _ => .wrong e _ _

theorem look {f : Option Kind → Parser β}
    (h : (f ((⟨ts, none⟩ : TokenStream).kindAt 0)).Starves n us before ts) :
    (Grammar.look 0 >>= f).Starves n us before ts := by
  rcases ts with _ | ⟨t, ts⟩
  · exact Ends.look h
  · intro hg
    change Starved _ _ ((Parser.look 0 f).run _ _) ((Parser.look 0 f).run _ _)
    rw [run, run, peekKind_of_visible (Or.inr rfl), peekKind_of_visible (Or.inr rfl)]
    exact h hg

/-- A look past the next token sees the same on both streams, but where the next is the last. -/
theorem lookPast {f : Option Kind → Parser β}
    (h : (f ((⟨ts, none⟩ : TokenStream).kindAt 1)).Starves n us before ts)
    (hlast : ∀ t, ts = [t] → (∀ k, f k = f none) ∨ (f none).Ends n before [t]) :
    (Grammar.look 1 >>= f).Starves n us before ts := by
  rcases ts with _ | ⟨t, ts⟩
  · exact Ends.look h
  · intro hg
    change Starved _ _ ((Parser.look 1 f).run _ _) ((Parser.look 1 f).run _ _)
    rw [run, run, peekKind_of_visible (Or.inr rfl), peekKind_of_visible (Or.inr rfl)]
    rcases ts with _ | ⟨t', ts⟩
    · rcases hlast t rfl with hsame | hends
      · simpa only [hsame] using h hg
      · exact .ended hends _
    · exact h hg

end Starves

end Rules

end Parser

/-- Every rule does the same on these tokens as where `us` follow them, or meets the end. -/
def RulesStarve (n : Nat) (us : List Token) : Prop :=
  ∀ (r : Rule) (before ts : List Token), (Grammar.call r).Starves n us before ts

section Starves

variable {n : Nat} {us before ts : List Token}

/-- A parser that looks no further than the next token, and orders no cases, does too. -/
theorem Parser.Uses.starves (ih : RulesStarve n us) {α : Type} {p : Parser α}
    (h : p.Uses 0 false false) : ∀ before ts, p.Starves n us before ts := by
  suffices hp : ∀ clear, p.Uses 0 false clear → ∀ before ts, p.Starves n us before ts from
    hp false h
  clear h
  induction p with
  | done a => exact fun _ _ _ _ => .pure
  | look m next hnext =>
    intro _ h before ts
    obtain rfl := Nat.le_zero.1 h.1
    exact .look (hnext _ _ (h.2 _) before ts)
  | skip next hnext =>
    rintro _ h before (_ | ⟨t, ts⟩)
    · exact hnext _ h before []
    · intro hg
      rw [List.cons_append, run, run, pop_cons, pop_cons]
      exact (hnext _ h (before ++ [t]) ts).cons hg
  | expect kind what next hnext =>
    rintro _ h before (_ | ⟨t, ts⟩)
    · exact .failed (fun _ => Or.inl ⟨what, rfl⟩) _
    · intro hg
      rw [List.cons_append, run, run, next_cons, next_cons]
      by_cases hk : t.kind = kind
      · simp only [hk, if_true]
        exact (hnext _ _ (h _) (before ++ [t]) ts).cons hg
      · simp only [hk, if_false]
        exact .wrong _ _ _
  | unexpected what =>
    rintro _ - before (_ | ⟨t, ts⟩)
    · exact .failed (fun _ => Or.inl ⟨what, rfl⟩) _
    · intro _
      rw [List.cons_append, run, run, peek_cons, peek_cons]
      exact .wrong _ _ _
  | fail e => exact fun _ h => absurd h.2.1 (by decide)
  | call r next hnext =>
    exact fun _ h before ts => .bind (ih r before ts) fun x vs rest _ _ =>
      hnext x _ (h x) _ rest

/-- Modifiers end in the keyword of one. -/
theorem Layout.modifiers_ends : ∀ {ms : List Modifier}, ms ≠ [] →
    ∃ m : Modifier, [.keyword m.keyword] <:+ (Layout.modifiers ms).tokens
  | [], h => absurd rfl h
  | [m], _ => ⟨m, List.suffix_refl _⟩
  | m :: m' :: ms, _ => by
    obtain ⟨l, hl⟩ := modifiers_ends (List.cons_ne_nil m' ms)
    exact ⟨l, hl.trans ⟨[.keyword m.keyword], by simp [Layout.modifiers]⟩⟩

namespace Grammar

/-- A name alone is taken for a variable. -/
theorem access_ends {t : Token} (hk : t.kind = .identifier) : access.Ends n before [t] := by
  refine .look (.look ?_)
  rw [show (⟨[t], none⟩ : TokenStream).kindAt 0 = some .identifier from congrArg some hk]
  exact .name hk (.done _)

theorem memberAccess_ends {t : Token} (hk : t.kind = .identifier) :
    (call .memberAccess).Ends n before [t] := by
  unfold Parser.Ends
  rw [Parser.run_call]
  rcases n with _ | n
  · exact .failed (fun h => absurd rfl h) _
  · have hbody : memberAccess.Ends n before [t] :=
      (access_ends hk).bind fun _ _ => .look (.done _)
    exact hbody

/-- Where the tokens end in the body of a case, they end in a `break` or a `return`. -/
theorem caseBody_leaves : ∀ {n : Nat} {s s' : TokenStream} {ss : List Statement},
    (call .caseBody).Takes n s ss s' → s'.tokens = [] →
      ∃ ss' x, ss = ss' ++ [x] ∧ x.leaves = true
  | 0, _, _, _, h, _ => absurd h Parser.Takes.not_call_zero
  | n + 1, s, s', ss, h, hs' => by
    have h₀ := h.call.look
    split at h₀
    · exact absurd h₀ Parser.Takes.not_unexpected
    · rename_i k hk
      split at h₀
      · obtain ⟨rfl, rfl⟩ := h₀.pure
        exact absurd hs' (ne_nil_of_kindAt hk)
      · obtain ⟨x, s₁, hx, h₁⟩ := h₀.bind
        obtain ⟨rfl, -⟩ : s = _ ∧ _ := Rule.accounts n hx
        obtain ⟨k', hk', -, hleaves⟩ := x.kindAt_leaves (s := s₁)
        obtain rfl : k' = k := Option.some.inj (hk'.symm.trans hk)
        split at h₁
        · rename_i hleave
          have h₂ := h₁.look
          split at h₂
          · obtain ⟨rfl, rfl⟩ := h₂.pure
            exact ⟨[], x, rfl, hleaves.2 hleave⟩
          · exact absurd h₂ Parser.Takes.not_unexpected
        · obtain ⟨ss', s₂, hss, h₂⟩ := h₁.bind
          obtain ⟨rfl, rfl⟩ := h₂.pure
          obtain ⟨ss'', y, rfl, hy⟩ := caseBody_leaves hss hs'
          exact ⟨x :: ss'', y, rfl, hy⟩

variable (ih : RulesStarve n us)

include ih

theorem access_starves (before ts : List Token) : access.Starves n us before ts := by
  refine .look (.lookPast ?_ fun t ht => ?_)
  · refine Parser.Uses.starves ih ?_ before ts
    split
    · exact .skip (.expect fun _ => typeArgs_uses.bind fun _ =>
        argumentList_uses.bind fun _ => .pure)
    · exact .expect fun _ => argumentList_uses.bind fun _ => .pure
    · exact .expect fun _ => .pure
    · exact .unexpected
  · subst ht
    rw [show (⟨[t], none⟩ : TokenStream).kindAt 0 = some t.kind from rfl]
    by_cases hk : t.kind = .identifier
    · rw [hk]
      exact Or.inr (.name hk (.done _))
    · refine Or.inl fun k => ?_
      generalize t.kind = first at hk
      cases first with
      | keyword w => cases w <;> rfl
      | identifier => exact absurd rfl hk
      | value | quote | symbol y => rfl

theorem memberAccess_starves (before ts : List Token) : memberAccess.Starves n us before ts := by
  refine .bind (access_starves ih before ts) fun a vs rest _ _ => ?_
  refine Parser.Uses.starves ih ?_ _ rest
  exact .eat (.call fun _ => .pure) .pure

/-- Where a name is the last token it counts as no declaration. -/
theorem declares_starves {α : Type} {f : Bool → Parser α} (hf : ∀ b, (f b).Uses 0 false false)
    (hlast : ∀ t, t.kind = .identifier → ts = [t] → (f false).Ends n before [t]) :
    (declares >>= f).Starves n us before ts := by
  rw [declares, bind_assoc]
  refine .look ?_
  split
  · rename_i hk
    rw [bind_assoc]
    simp only [pure_bind]
    refine .lookPast ((hf _).starves ih before ts) fun t ht => Or.inr ?_
    subst ht
    exact hlast t (Option.some.inj hk) rfl
  · exact (hf false).starves ih before ts

theorem simpleStatement_starves (before ts : List Token) :
    simpleStatement.Starves n us before ts := by
  refine .bind (ih .modifiers before ts) fun ms vs rest hts hms => ?_
  refine declares_starves ih (fun b => ?_) fun t hk ht => ?_
  · split
    · exact declaration_uses.bind fun _ => .symbol .pure
    · split
      · exact .call fun m => .eat .pure ((updateOf_uses m).bind fun _ => .symbol .pure)
      · exact .unexpected
  · subst ht
    obtain rfl : vs = (Layout.modifiers ms).tokens := by
      have htokens : (⟨ts, none⟩ : TokenStream)
          = TokenStream.prepend ⟨[t], none⟩ (Layout.modifiers ms).tokens := Rule.accounts n hms
      rw [hts] at htokens
      exact List.append_cancel_right (congrArg TokenStream.tokens htokens)
    split
    · rename_i hfalse
      cases hfalse
    · split
      · refine (memberAccess_ends hk).bind fun m _ => ?_
        refine Parser.Uses.starves ih ?_ _ []
        exact .eat .pure ((updateOf_uses m).bind fun _ => .symbol .pure)
      · rename_i hms
        obtain ⟨m, hm⟩ := Layout.modifiers_ends (by simpa using hms)
        change Ended _ ((Parser.unexpected _).run _ _)
        rw [Parser.run, peek_cons]
        refine .failed (fun _ => Or.inr (.modified m t.content ?_)) _
        obtain ⟨init, hinit⟩ := hm
        exact ⟨before ++ init, by simp [← hinit, Token.identifier, ← hk]⟩

theorem statement_starves (before ts : List Token) : statement.Starves n us before ts := by
  refine .look ?_
  split
  · exact Parser.Uses.starves ih .unexpected before ts
  · exact Parser.Uses.starves ih (.call fun _ => .pure) before ts
  · exact whileLoop_uses.starves ih before ts
  · exact forLoop_uses.starves ih before ts
  · exact foreachLoop_uses.starves ih before ts
  · exact switch_uses.starves ih before ts
  · exact breakOut_uses.starves ih before ts
  · exact returnValue_uses.starves ih before ts
  · exact asm_uses.starves ih before ts
  · refine Parser.Uses.starves ih (update_uses.bind fun _ => ?_) before ts
    exact .symbol .pure
  · refine Parser.Uses.starves ih (update_uses.bind fun _ => ?_) before ts
    exact .symbol .pure
  · exact simpleStatement_starves ih before ts

theorem members_starves (before ts : List Token) : members.Starves n us before ts := by
  refine .bind (ih .modifiers before ts) fun ms vs rest _ _ => .look (.lookPast ?_ fun t ht => ?_)
  · refine Parser.Uses.starves ih ?_ _ rest
    split
    · split
      · exact .pure
      · exact .unexpected
    · exact (constructor_uses ms).bind fun _ => .call fun _ => .pure
    · exact (classDeclaration_uses ms).bind fun _ => .call fun _ => .pure
    · exact (function_uses ms).bind fun _ => .call fun _ => .pure
    · exact declaration_uses.bind fun _ => .symbol (.call fun _ => .pure)
    · exact .unexpected
  · subst ht
    rw [show (⟨[t], none⟩ : TokenStream).kindAt 0 = some t.kind from rfl]
    by_cases hk : t.kind = .identifier
    · rw [hk]
      refine Or.inr (Parser.Ends.bind (.name hk ?_) fun d _ => ?_)
      · refine Parser.Uses.starves ih (typeArgs_uses.bind fun _ => .expect fun _ => ?_) _ []
        exact .eat (.call fun _ => .pure) .pure
      · exact Parser.Uses.starves ih (.symbol (.call fun _ => .pure)) _ []
    · refine Or.inl fun k => ?_
      generalize t.kind = first at hk
      cases first with
      | keyword w => cases w <;> rfl
      | symbol y => cases y <;> rfl
      | identifier => exact absurd rfl hk
      | value | quote => rfl

theorem cases_starves (before ts : List Token) : cases.Starves n us before ts := by
  refine .look ?_
  split
  · refine Parser.Uses.starves ih (.skip (.call fun _ => .symbol (.call fun _ =>
      .look fun k => ?_))) before ts
    split
    · exact .pure
    · exact .call fun _ => .pure
  · rename_i hk
    -- the body ends with the input only after a `break` or a `return`, and then nothing is seen
    have hbody : (do skip; symbol .colon "after 'default'"; call .caseBody).Starves n us before
        ts :=
      Parser.Uses.starves ih (.skip (.symbol (.call fun _ => .pure))) before ts
    refine .bind (f := fun ss => do
      if (← look 0) = some Symbol.rightBrace then return Cases.default ss
      else .fail .defaultNotLast) hbody fun ss vs rest hts hss => ?_
    obtain ⟨s₁, hs₁, h₁⟩ := hss.skip_keyword hk
    obtain ⟨s₂, rfl, h₂⟩ := h₁.symbol
    obtain ⟨rfl, -⟩ : s₂ = _ ∧ _ := Rule.accounts n h₂
    obtain rfl : vs = (Cases.default ss).layout.tokens := by
      rw [hts] at hs₁
      refine List.append_cancel_right ((congrArg TokenStream.tokens hs₁).trans ?_)
      simp [Cases.layout]
    rcases rest with _ | ⟨t, rest⟩
    · obtain ⟨ss, x, rfl, hx⟩ := caseBody_leaves h₂ rfl
      refine Parser.Ends.look (.failed (fun _ => Or.inr (.default ss hx ?_)) _)
      rw [List.append_nil]
      exact List.suffix_append before _
    · refine .look ?_
      split
      · exact .pure
      · exact .fail
  · exact Parser.Uses.starves ih .unexpected before ts

end Grammar

open Grammar in
theorem Rule.body_starves (ih : RulesStarve n us) : ∀ (r : Rule) (before ts : List Token),
    r.body.Starves n us before ts
  | memberAccess => memberAccess_starves ih
  | statement => statement_starves ih
  | cases => cases_starves ih
  | members => members_starves ih
  | modifiers => modifiers_uses.starves ih
  | typeNames => typeNames_uses.starves ih
  | parameters => parameters_uses.starves ih
  | expression => expression_uses.starves ih
  | arguments => arguments_uses.starves ih
  | conditions => conditions_uses.starves ih
  | statements => statements_uses.starves ih
  | ifChain => ifChain_uses.starves ih
  | caseBody => caseBody_uses.starves ih

theorem Rule.starves : ∀ n : Nat, RulesStarve n us
  | 0, r, before, [] => .failed (fun h => absurd rfl h) _
  | 0, r, before, t :: ts => fun _ => .wrong .exhausted _ _
  | n + 1, r, before, ts => by
    have hbody := Rule.body_starves (Rule.starves n) r before ts
    rcases ts with _ | ⟨t, ts⟩
    · unfold Parser.Starves Parser.Ends
      rw [Parser.run_call]
      exact hbody
    · intro hg
      rw [Parser.run_call, Parser.run_call]
      exact hbody hg

/-- The same, whatever depth the calls take. -/
theorem Parser.Guarded.read_starved {α : Type} {rank : Nat} {must : Bool} {p : Parser α}
    (h : p.Guarded rank must false false) (hr : rank ≤ 3) (hu : p.Uses 0 false false)
    (hg : ∀ t ∈ ts, t.Genuine) (us : List Token) :
    Starved us ts (p.run Rule.read ⟨ts, none⟩) (p.run Rule.read ⟨ts ++ us, none⟩) := by
  have hstarves : p.Starves (4 * (ts ++ us).length + rank) us [] ts :=
    hu.starves (Rule.starves _) [] ts
  have hrun := hstarves.starved hg
  have hle : 4 * ts.length + rank ≤ 4 * (ts ++ us).length + rank := by
    rw [List.length_append]
    omega
  have hmore : p.run (Rule.run (4 * (ts ++ us).length + rank)) ⟨ts ++ us, none⟩
      = p.run Rule.read ⟨ts ++ us, none⟩ := h.run_eq hr (Nat.le_refl _)
  rwa [h.run_eq hr hle, hmore] at hrun

end Starves

end ClassLang
