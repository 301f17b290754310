import ClassLang.Proofs.Calls
import ClassLang.Proofs.Genuine

/-!
# Parsers that succeed

`Parser.Reads call s a s'`: on the stream `s` a parser yields `a` and leaves `s'`. The lemmas here
build such a run step by step, one for each way a parser is put together. `Parser.Takes n s a s'`
is a run on genuine tokens with calls nested at most `n` deep; the lemmas take such a run apart, and
say which tokens each step took.
-/

namespace ClassLang

/-- A parser yields `a` on a stream, and leaves another. -/
def Parser.Reads {α : Type} (p : Parser α) (s : TokenStream) (a : α) (s' : TokenStream) : Prop :=
  p.run Rule.read s = (.ok a, s')

/-- A call by itself runs the rule. -/
theorem Parser.run_call {σ : Type} [TokenSource σ]
    (call : (r : Rule) → σ → Except ParseError r.Node × σ) (r : Rule) (s : σ) :
    (Grammar.call r).run call s = call r s := by
  change (Parser.call r .done).run call s = _
  rw [run]
  rcases call r s with ⟨_ | _, _⟩ <;> rfl

namespace Parser.Reads

variable {α β : Type} {p : Parser α} {f : α → Parser β} {s s₁ s' : TokenStream} {a : α} {b : β}
  {ts : List Token} {k : Kind}

theorem bind (hp : p.Reads s a s₁) (hf : (f a).Reads s₁ b s') : (p >>= f).Reads s b s' := by
  show (p.bind f).run Rule.read s = _
  rw [run_bind, hp]
  exact hf

theorem pure : (Pure.pure a : Parser α).Reads s a s := rfl

theorem look {n : Nat} {f : Option Kind → Parser β} (hv : s.Visible n)
    (h : (f (s.kindAt n)).Reads s b s') : (Grammar.look n >>= f).Reads s b s' := by
  show (Parser.look n f).run Rule.read s = _
  rw [run, TokenStream.peekKind_of_visible hv]
  exact h

theorem skip {f : Unit → Parser β} {t : Token} (h : (f ()).Reads (s.prepend ts) b s') :
    (Grammar.skip >>= f).Reads (s.prepend (t :: ts)) b s' := by
  show (Parser.skip (f ())).run Rule.read ⟨t :: (ts ++ s.tokens), s.failure⟩ = _
  rw [run, TokenStream.pop_cons]
  exact h

theorem expect {what : String} {f : String → Parser β} {c : String}
    (h : (f c).Reads (s.prepend ts) b s') :
    (Grammar.expect k what >>= f).Reads (s.prepend (⟨k, c⟩ :: ts)) b s' := by
  show (Parser.expect k what f).run Rule.read ⟨⟨k, c⟩ :: (ts ++ s.tokens), s.failure⟩ = _
  rw [run, TokenStream.next_cons]
  show (if k = k then _ else _) = _
  rw [if_pos rfl]
  exact h

theorem keyword {what : String} {f : Unit → Parser β} {k : Keyword}
    (h : (f ()).Reads (s.prepend ts) b s') :
    (Grammar.keyword k what >>= f).Reads (s.prepend (.keyword k :: ts)) b s' :=
  expect h

theorem symbol {purpose : String} {f : Unit → Parser β} {y : Symbol}
    (h : (f ()).Reads (s.prepend ts) b s') :
    (Grammar.symbol y purpose >>= f).Reads (s.prepend (.symbol y :: ts)) b s' :=
  expect h

theorem name {what : String} {f : String → Parser β} {c : String}
    (h : (f c).Reads (s.prepend ts) b s') :
    (Grammar.name what >>= f).Reads (s.prepend (.identifier c :: ts)) b s' :=
  expect h

theorem eat_true {f : Bool → Parser β} {c : String} (h : (f true).Reads (s.prepend ts) b s') :
    (Grammar.eat k >>= f).Reads (s.prepend (⟨k, c⟩ :: ts)) b s' := by
  rw [bind_eat]
  refine look (Or.inl (Nat.succ_pos _)) ?_
  rw [if_pos (by simp)]
  exact skip h

theorem eat_false {f : Bool → Parser β} (hv : s.Visible 0) (hk : s.kindAt 0 ≠ some k)
    (h : (f false).Reads s b s') : (Grammar.eat k >>= f).Reads s b s' := by
  rw [bind_eat]
  refine look hv ?_
  rwa [if_neg hk]

theorem call {r : Rule} {x : r.Node} (h : r.body.Reads s x s') : (Grammar.call r).Reads s x s' := by
  show (Grammar.call r).run Rule.read s = _
  rw [run_call, Rule.read_eq, h]

end Parser.Reads

/-- Whether all tokens still to be read are genuine. -/
def TokenStream.Genuine (s : TokenStream) : Prop :=
  ∀ t ∈ s.tokens, t.Genuine

/-- A parser yields `a` on genuine tokens, with calls nested at most `n` deep. -/
def Parser.Takes {α : Type} (n : Nat) (p : Parser α) (s : TokenStream) (a : α)
    (s' : TokenStream) : Prop :=
  s.Genuine ∧ p.run (Rule.run n) s = (.ok a, s')

namespace Parser.Takes

variable {α β : Type} {n : Nat} {p : Parser α} {f : α → Parser β} {s s' : TokenStream} {a : α}
  {b : β} {k : Kind}

theorem genuine (h : p.Takes n s a s') : s'.Genuine := by
  have := Parser.run_suffix (Rule.run_suffix n) p s
  rw [h.2] at this
  exact fun t ht => h.1 t (this.subset ht)

theorem bind (h : (p >>= f).Takes n s b s') :
    ∃ a s₁, p.Takes n s a s₁ ∧ (f a).Takes n s₁ b s' := by
  obtain ⟨hg, h⟩ := h
  change (p.bind f).run (Rule.run n) s = _ at h
  rw [run_bind] at h
  rcases hp : p.run (Rule.run n) s with ⟨_ | a, s₁⟩ <;> rw [hp] at h
  · cases h
  · have hp' : p.Takes n s a s₁ := ⟨hg, hp⟩
    exact ⟨a, s₁, hp', hp'.genuine, h⟩

theorem pure {b : α} (h : (Pure.pure a : Parser α).Takes n s b s') : b = a ∧ s' = s := by
  have := h.2
  cases this
  exact ⟨rfl, rfl⟩

theorem not_unexpected {what : String} : ¬ (Grammar.unexpected what : Parser α).Takes n s a s' := by
  rintro ⟨-, h⟩
  change (Parser.unexpected what).run (Rule.run n) s = _ at h
  obtain ⟨r, hr⟩ := TokenStream.peek_eq s
  rw [run, hr] at h
  rcases r with _ | _ <;> cases h

theorem not_fail {e : ParseError} : ¬ (Parser.fail e : Parser α).Takes n s a s' := by
  rintro ⟨-, h⟩
  cases h

theorem look {m : Nat} {f : Option Kind → Parser β} (h : (Grammar.look m >>= f).Takes n s b s') :
    (f (s.kindAt m)).Takes n s b s' := by
  obtain ⟨hg, h⟩ := h
  change (Parser.look m f).run (Rule.run n) s = _ at h
  by_cases hv : s.Visible m
  · rw [run, TokenStream.peekKind_of_visible hv] at h
    exact ⟨hg, h⟩
  · obtain ⟨e, he⟩ := TokenStream.peekKind_of_not_visible hv
    rw [run, he] at h
    cases h

theorem skip {f : Unit → Parser β} (h : (Grammar.skip >>= f).Takes n s b s')
    (hk : s.kindAt 0 = some k) :
    ∃ t s₁, t.kind = k ∧ t.Genuine ∧ s = s₁.prepend [t] ∧ (f ()).Takes n s₁ b s' := by
  obtain ⟨hg, h⟩ := h
  change (Parser.skip (f ())).run (Rule.run n) s = _ at h
  obtain ⟨t, ht, hs⟩ := TokenStream.exists_prepend_of_kindAt hk
  generalize s.drop 1 = s₁ at hs
  subst hs
  rw [run, show s₁.prepend [t] = ⟨t :: s₁.tokens, s₁.failure⟩ from rfl, TokenStream.pop_cons] at h
  exact ⟨t, s₁, ht, hg t (by simp), rfl, fun u hu => hg u (by simp [hu]), h⟩

theorem skip_symbol {f : Unit → Parser β} {y : Symbol} (h : (Grammar.skip >>= f).Takes n s b s')
    (hk : s.kindAt 0 = some (.symbol y)) :
    ∃ s₁, s = s₁.prepend [.symbol y] ∧ (f ()).Takes n s₁ b s' := by
  obtain ⟨t, s₁, ht, hg, hs, h⟩ := h.skip hk
  exact ⟨s₁, hg.eq_symbol ht ▸ hs, h⟩

theorem skip_keyword {f : Unit → Parser β} {y : Keyword} (h : (Grammar.skip >>= f).Takes n s b s')
    (hk : s.kindAt 0 = some (.keyword y)) :
    ∃ s₁, s = s₁.prepend [.keyword y] ∧ (f ()).Takes n s₁ b s' := by
  obtain ⟨t, s₁, ht, hg, hs, h⟩ := h.skip hk
  exact ⟨s₁, hg.eq_keyword ht ▸ hs, h⟩

theorem expect {what : String} {f : String → Parser β}
    (h : (Grammar.expect k what >>= f).Takes n s b s') :
    ∃ c s₁, Token.Genuine ⟨k, c⟩ ∧ s = s₁.prepend [⟨k, c⟩] ∧ (f c).Takes n s₁ b s' := by
  obtain ⟨hg, h⟩ := h
  change (Parser.expect k what f).run (Rule.run n) s = _ at h
  obtain ⟨_ | ⟨⟨kind, c⟩, ts⟩, _ | e⟩ := s
  · cases h
  · cases h
  all_goals
    rw [run, TokenStream.next_cons] at h
    change (if kind = k then _ else _) = _ at h
    split at h
    · rename_i hk
      subst hk
      refine ⟨c, ⟨ts, _⟩, hg _ (by simp), rfl, fun u hu => hg u (by simp [hu]), h⟩
    · cases h

theorem name {what : String} {f : String → Parser β}
    (h : (Grammar.name what >>= f).Takes n s b s') :
    ∃ c s₁, s = s₁.prepend [.identifier c] ∧ (f c).Takes n s₁ b s' := by
  obtain ⟨c, s₁, -, hs, h⟩ := expect h
  exact ⟨c, s₁, hs, h⟩

theorem keyword {y : Keyword} {what : String} {f : Unit → Parser β}
    (h : (Grammar.keyword y what >>= f).Takes n s b s') :
    ∃ s₁, s = s₁.prepend [.keyword y] ∧ (f ()).Takes n s₁ b s' := by
  have h : (Grammar.expect y what >>= fun _ => f ()).Takes n s b s' := h
  obtain ⟨c, s₁, hg, hs, h⟩ := h.expect
  exact ⟨s₁, hg.eq_keyword rfl ▸ hs, h⟩

theorem symbol {y : Symbol} {purpose : String} {f : Unit → Parser β}
    (h : (Grammar.symbol y purpose >>= f).Takes n s b s') :
    ∃ s₁, s = s₁.prepend [.symbol y] ∧ (f ()).Takes n s₁ b s' := by
  have h : (Grammar.expect y (Grammar.wanted y purpose) >>= fun _ => f ()).Takes n s b s' := h
  obtain ⟨c, s₁, hg, hs, h⟩ := h.expect
  exact ⟨s₁, hg.eq_symbol rfl ▸ hs, h⟩

theorem eat {f : Bool → Parser β} (h : (Grammar.eat k >>= f).Takes n s b s') :
    ((Grammar.skip >>= fun _ => f true).Takes n s b s' ∧ s.kindAt 0 = some k)
      ∨ ((f false).Takes n s b s' ∧ s.kindAt 0 ≠ some k) := by
  rw [bind_eat] at h
  have h := h.look
  split at h
  · rename_i hk
    exact Or.inl ⟨h, hk⟩
  · rename_i hk
    exact Or.inr ⟨h, hk⟩

theorem eat_symbol {y : Symbol} {f : Bool → Parser β}
    (h : (Grammar.eat y >>= f).Takes n s b s') :
    (∃ s₁, s = s₁.prepend [.symbol y] ∧ (f true).Takes n s₁ b s')
      ∨ ((f false).Takes n s b s' ∧ s.kindAt 0 ≠ some (.symbol y)) :=
  h.eat.imp_left fun h => h.1.skip_symbol h.2

theorem eat_keyword {y : Keyword} {f : Bool → Parser β}
    (h : (Grammar.eat y >>= f).Takes n s b s') :
    (∃ s₁, s = s₁.prepend [.keyword y] ∧ (f true).Takes n s₁ b s')
      ∨ ((f false).Takes n s b s' ∧ s.kindAt 0 ≠ some (.keyword y)) :=
  h.eat.imp_left fun h => h.1.skip_keyword h.2

theorem call {r : Rule} {x : r.Node} (h : (Grammar.call r).Takes (n + 1) s x s') :
    r.body.Takes n s x s' := by
  obtain ⟨hg, h⟩ := h
  rw [run_call] at h
  exact ⟨hg, h⟩

theorem not_call_zero {r : Rule} {x : r.Node} : ¬ (Grammar.call r).Takes 0 s x s' := by
  rintro ⟨-, h⟩
  cases h

end Parser.Takes

end ClassLang
