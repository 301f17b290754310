import ClassLang.Proofs.Reads
import ClassLang.Proofs.WellFormed
import ClassLang.Proofs.Written

/-!
# Rules take the tokens of what they yield

A rule that succeeds on genuine tokens has taken the tokens its tree is written with, no other and
in this order, and the tree is well formed (`Rule.accounts`). Where the tree ends in an `if` that
could still take an `else`, none comes next. The induction is on the depth of the calls: each
production is taken apart into the steps it is made of, with the rules it calls accounted for.
-/

namespace ClassLang

/-- The tokens a rule took are those of its tree, which is well formed. -/
def Rule.Accounts : (r : Rule) → TokenStream → r.Node → TokenStream → Prop
  | .modifiers, s, ms, s' => s = s'.prepend (Layout.modifiers ms).tokens
  | .typeNames, s, ns, s' =>
    ns ≠ [] ∧ s = s'.prepend
      ((Layout.commaSeparated (ns.map fun n => [.name n])).tokens ++ [.symbol .greater])
  | .parameters, s, ps, s' =>
    ps ≠ [] ∧ s = s'.prepend
      ((Layout.commaSeparated (ps.map Parameter.layout)).tokens ++ [.symbol .rightParen])
  | .expression, s, e, s' => s = s'.prepend e.layout.tokens
  | .memberAccess, s, m, s' => s = s'.prepend m.layout.tokens
  | .arguments, s, es, s' =>
    es ≠ [] ∧ s = s'.prepend ((argumentsLayout es).tokens ++ [.symbol .rightParen])
  | .conditions, s, k, s' => s = s'.prepend k.layout.tokens ∧ k.WellFormed
  | .statement, s, x, s' =>
    s = s'.prepend x.layout.tokens ∧ x.WellFormed
      ∧ (x.isOpen = true → s'.kindAt 0 ≠ some (.keyword .elseKw))
  | .statements, s, ss, s' =>
    s = s'.prepend (statementsLayout ss).tokens ∧ StatementsWellFormed ss
  | .ifChain, s, i, s' =>
    s = s'.prepend i.layout.tokens ∧ i.WellFormed
      ∧ (i.isOpen = true → s'.kindAt 0 ≠ some (.keyword .elseKw))
  | .cases, s, cs, s' => s = s'.prepend cs.layout.tokens ∧ cs.WellFormed
  | .caseBody, s, ss, s' =>
    s = s'.prepend (statementsLayout ss).tokens ∧ StatementsWellFormed ss ∧ LeavesLast ss
  | .members, s, ms, s' =>
    (∃ ts, MembersWritten ms ts ∧ s = s'.prepend ts) ∧ ∀ m ∈ ms, m.WellFormed

/-- An expression that begins grouped begins with a parenthesis. -/
theorem Expression.tokens_of_beginsGrouped {e : Expression} (h : e.beginsGrouped = true) :
    ∃ ts, e.layout.tokens = .symbol .leftParen :: ts := by
  rcases e with (_ | _ | _) | ⟨_ | _ | _, o, e⟩ <;>
    simp [beginsGrouped, operands, Expression.layout, Operand.layout] at h ⊢

namespace Grammar

section Accounts

variable {n : Nat}
  (ih : ∀ {r : Rule} {s : TokenStream} {x : r.Node} {s' : TokenStream},
    (call r).Takes n s x s' → r.Accounts s x s')
  {s s' : TokenStream}

include ih

theorem modifiers_accounts {ms : List Modifier} (h : modifiers.Takes n s ms s') :
    s = s'.prepend (Layout.modifiers ms).tokens := by
  have h₀ := h.look
  split at h₀
  · rename_i m hm
    obtain ⟨k, hk, hm⟩ := Option.bind_eq_some_iff.1 hm
    obtain ⟨s₁, rfl, h₁⟩ := h₀.skip_keyword (Modifier.ofKind?_eq_some_iff.1 hm ▸ hk)
    obtain ⟨ms', s₂, hms, h₂⟩ := h₁.bind
    obtain ⟨rfl, rfl⟩ := h₂.pure
    obtain rfl : s₁ = _ := ih hms
    simp [Layout.modifiers]
  · obtain ⟨rfl, rfl⟩ := h₀.pure
    rfl

theorem typeNames_accounts {ns : List String} (h : typeNames.Takes n s ns s') :
    Rule.Accounts .typeNames s ns s' := by
  obtain ⟨n, s₁, rfl, h₁⟩ := h.name
  rcases h₁.eat_symbol with ⟨s₂, rfl, h₂⟩ | ⟨h₂, -⟩
  · obtain ⟨ns', s₃, hns, h₃⟩ := h₂.bind
    obtain ⟨rfl, rfl⟩ := h₃.pure
    obtain ⟨hne, rfl⟩ : _ ∧ s₂ = _ := ih hns
    refine ⟨by simp, ?_⟩
    simp [Layout.commaSeparated_cons, hne]
  · obtain ⟨s₂, rfl, h₃⟩ := h₂.symbol
    obtain ⟨rfl, rfl⟩ := h₃.pure
    exact ⟨by simp, rfl⟩

theorem typeArgs_accounts {ns : List String} (h : typeArgs.Takes n s ns s') :
    s = s'.prepend (Layout.typeArgs ns).tokens := by
  rcases h.eat_symbol with ⟨s₁, rfl, h₁⟩ | ⟨h₁, -⟩
  · obtain ⟨hne, rfl⟩ : _ ∧ s₁ = _ := ih h₁
    simp [Layout.typeArgs_of_ne_nil hne]
  · obtain ⟨rfl, rfl⟩ := h₁.pure
    rfl

theorem operand_accounts {a : Operand} (h : operand.Takes n s a s') :
    s = s'.prepend a.layout.tokens := by
  have h₀ := h.look
  split at h₀
  · rename_i hk
    obtain ⟨s₁, rfl, h₁⟩ := h₀.skip_symbol hk
    obtain ⟨e, s₂, he, h₂⟩ := h₁.bind
    obtain ⟨s₃, rfl, h₃⟩ := h₂.symbol
    obtain ⟨rfl, rfl⟩ := h₃.pure
    obtain rfl : s₁ = _ := ih he
    simp [Operand.layout]
  · obtain ⟨c, s₁, -, rfl, h₁⟩ := h₀.expect
    obtain ⟨rfl, rfl⟩ := h₁.pure
    simp [Operand.layout]
  · obtain ⟨m, s₁, hm, h₁⟩ := h₀.bind
    obtain ⟨rfl, rfl⟩ := h₁.pure
    obtain rfl : s = _ := ih hm
    simp [Operand.layout]

theorem expression_accounts {e : Expression} (h : expression.Takes n s e s') :
    s = s'.prepend e.layout.tokens := by
  obtain ⟨a, s₁, ha, h₁⟩ := h.bind
  obtain rfl := operand_accounts ih ha
  have h₂ := h₁.look
  split at h₂
  · rename_i o ho
    obtain ⟨k, hk, ho⟩ := Option.bind_eq_some_iff.1 ho
    obtain ⟨s₂, rfl, h₃⟩ := h₂.skip_symbol (Operation.ofKind?_eq_some_iff.1 ho ▸ hk)
    obtain ⟨e', s₃, he, h₄⟩ := h₃.bind
    obtain ⟨rfl, rfl⟩ := h₄.pure
    obtain rfl : s₂ = _ := ih he
    simp [Expression.layout]
  · obtain ⟨rfl, rfl⟩ := h₂.pure
    simp [Expression.layout]

theorem arguments_accounts {es : List Expression} (h : arguments.Takes n s es s') :
    Rule.Accounts .arguments s es s' := by
  obtain ⟨e, s₁, he, h₁⟩ := h.bind
  obtain rfl : s = _ := ih he
  rcases h₁.eat_symbol with ⟨s₂, rfl, h₂⟩ | ⟨h₂, -⟩
  · obtain ⟨es', s₃, hes, h₃⟩ := h₂.bind
    obtain ⟨rfl, rfl⟩ := h₃.pure
    obtain ⟨hne, rfl⟩ : _ ∧ s₂ = _ := ih hes
    refine ⟨by simp, ?_⟩
    simp [argumentsLayout_cons hne]
  · obtain ⟨s₂, rfl, h₃⟩ := h₂.symbol
    obtain ⟨rfl, rfl⟩ := h₃.pure
    refine ⟨by simp, ?_⟩
    simp [argumentsLayout]

theorem argumentList_accounts {es : List Expression} (h : argumentList.Takes n s es s') :
    s = s'.prepend
      (.symbol .leftParen :: (argumentsLayout es).tokens ++ [.symbol .rightParen]) := by
  obtain ⟨s₁, rfl, h₁⟩ := h.symbol
  rcases h₁.eat_symbol with ⟨s₂, rfl, h₂⟩ | ⟨h₂, -⟩
  · obtain ⟨rfl, rfl⟩ := h₂.pure
    rfl
  · obtain ⟨-, rfl⟩ : _ ∧ s₁ = _ := ih h₂
    simp

theorem access_accounts {a : Access} (h : access.Takes n s a s') :
    s = s'.prepend a.layout.tokens := by
  have h₀ := h.look.look
  split at h₀
  · rename_i hk
    obtain ⟨s₁, rfl, h₁⟩ := h₀.skip_keyword hk
    obtain ⟨c, s₂, rfl, h₂⟩ := h₁.name
    obtain ⟨ns, s₃, hns, h₃⟩ := h₂.bind
    obtain ⟨es, s₄, hes, h₄⟩ := h₃.bind
    obtain ⟨rfl, rfl⟩ := h₄.pure
    obtain rfl := typeArgs_accounts ih hns
    obtain rfl := argumentList_accounts ih hes
    simp [Access.layout]
  · obtain ⟨c, s₁, rfl, h₁⟩ := h₀.name
    obtain ⟨es, s₂, hes, h₂⟩ := h₁.bind
    obtain ⟨rfl, rfl⟩ := h₂.pure
    obtain rfl := argumentList_accounts ih hes
    simp [Access.layout]
  · obtain ⟨c, s₁, rfl, h₁⟩ := h₀.name
    obtain ⟨rfl, rfl⟩ := h₁.pure
    simp [Access.layout]
  · exact absurd h₀ Parser.Takes.not_unexpected

theorem memberAccess_accounts {m : MemberAccess} (h : memberAccess.Takes n s m s') :
    s = s'.prepend m.layout.tokens := by
  obtain ⟨a, s₁, ha, h₁⟩ := h.bind
  obtain rfl := access_accounts ih ha
  rcases h₁.eat_symbol with ⟨s₂, rfl, h₂⟩ | ⟨h₂, -⟩
  · obtain ⟨m', s₃, hm, h₃⟩ := h₂.bind
    obtain ⟨rfl, rfl⟩ := h₃.pure
    obtain rfl : s₂ = _ := ih hm
    simp [MemberAccess.layout]
  · obtain ⟨rfl, rfl⟩ := h₂.pure
    simp [MemberAccess.layout]

theorem groupedConditions_accounts {k : Conditions} (h : groupedConditions.Takes n s k s') :
    s = s'.prepend (.symbol .leftParen :: k.layout.tokens ++ [.symbol .rightParen])
      ∧ k.WellFormed := by
  obtain ⟨s₁, rfl, h₁⟩ := h.symbol
  obtain ⟨k', s₂, hk, h₂⟩ := h₁.bind
  obtain ⟨s₃, rfl, h₃⟩ := h₂.symbol
  obtain ⟨rfl, rfl⟩ := h₃.pure
  obtain ⟨rfl, hwf⟩ : s₁ = _ ∧ _ := ih hk
  exact ⟨by simp, hwf⟩

/-- A comparison that no parenthesis comes before does not begin grouped. -/
theorem comparison_accounts {c : Clause} (h : comparison.Takes n s c s')
    (hs : s.kindAt 0 ≠ some (.symbol .leftParen)) :
    s = s'.prepend c.layout.tokens ∧ c.WellFormed := by
  obtain ⟨l, s₁, hl, h₁⟩ := h.bind
  obtain rfl : s = _ := ih hl
  have hgroup : l.beginsGrouped = false := by
    rw [← Bool.not_eq_true]
    intro hg
    obtain ⟨ts, hts⟩ := l.tokens_of_beginsGrouped hg
    rw [hts] at hs
    exact hs rfl
  have h₂ := h₁.look
  split at h₂
  · rename_i o ho
    obtain ⟨k, hk, ho⟩ := Option.bind_eq_some_iff.1 ho
    obtain ⟨s₂, rfl, h₃⟩ := h₂.skip_symbol (Comparison.ofKind?_eq_some_iff.1 ho ▸ hk)
    obtain ⟨r, s₃, hr, h₄⟩ := h₃.bind
    obtain ⟨rfl, rfl⟩ := h₄.pure
    obtain rfl : s₂ = _ := ih hr
    exact ⟨by simp [Clause.layout], hgroup⟩
  · exact absurd h₂ Parser.Takes.not_unexpected

theorem clause_accounts {c : Clause} (h : clause.Takes n s c s') :
    s = s'.prepend c.layout.tokens ∧ c.WellFormed := by
  have h₀ := h.look
  split at h₀
  · rename_i hk
    obtain ⟨s₁, rfl, h₁⟩ := h₀.skip_symbol hk
    have h₂ := h₁.look
    split at h₂
    · obtain ⟨k, s₂, hk, h₃⟩ := h₂.bind
      obtain ⟨rfl, rfl⟩ := h₃.pure
      obtain ⟨rfl, hwf⟩ := groupedConditions_accounts ih hk
      exact ⟨by simp [Clause.layout], hwf⟩
    · exact absurd h₂ Parser.Takes.not_unexpected
  · obtain ⟨k, s₁, hk, h₁⟩ := h₀.bind
    obtain ⟨rfl, rfl⟩ := h₁.pure
    obtain ⟨rfl, hwf⟩ := groupedConditions_accounts ih hk
    exact ⟨by simp [Clause.layout], hwf⟩
  · rename_i hk
    exact comparison_accounts ih h₀ hk

theorem conditions_accounts {k : Conditions} (h : conditions.Takes n s k s') :
    s = s'.prepend k.layout.tokens ∧ k.WellFormed := by
  obtain ⟨c, s₁, hc, h₁⟩ := h.bind
  obtain ⟨rfl, hwf⟩ := clause_accounts ih hc
  have h₂ := h₁.look
  split at h₂
  · rename_i o ho
    obtain ⟨k, hk, ho⟩ := Option.bind_eq_some_iff.1 ho
    obtain ⟨s₂, rfl, h₃⟩ := h₂.skip_symbol (Logic.ofKind?_eq_some_iff.1 ho ▸ hk)
    obtain ⟨k', s₃, hk', h₄⟩ := h₃.bind
    obtain ⟨rfl, rfl⟩ := h₄.pure
    obtain ⟨rfl, hwf'⟩ : s₂ = _ ∧ _ := ih hk'
    exact ⟨by simp [Conditions.layout], hwf, hwf'⟩
  · obtain ⟨rfl, rfl⟩ := h₂.pure
    exact ⟨by simp [Conditions.layout], hwf⟩

theorem updateOf_accounts {m : MemberAccess} {u : Update} (h : (updateOf m).Takes n s u s') :
    s'.prepend u.layout.tokens = s.prepend m.layout.tokens := by
  have h₀ := h.look
  split at h₀
  · rename_i o ho
    obtain ⟨k, hk, ho⟩ := Option.bind_eq_some_iff.1 ho
    obtain ⟨s₁, rfl, h₁⟩ := h₀.skip_symbol (Assignment.ofKind?_eq_some_iff.1 ho ▸ hk)
    obtain ⟨e, s₂, he, h₂⟩ := h₁.bind
    obtain ⟨rfl, rfl⟩ := h₂.pure
    obtain rfl : s₁ = _ := ih he
    simp [Update.layout]
  · rename_i o _ ho
    obtain ⟨k, hk, ho⟩ := Option.bind_eq_some_iff.1 ho
    obtain ⟨s₁, rfl, h₁⟩ := h₀.skip_symbol (Counting.ofKind?_eq_some_iff.1 ho ▸ hk)
    obtain ⟨rfl, rfl⟩ := h₁.pure
    simp [Update.layout]
  · exact absurd h₀ Parser.Takes.not_unexpected

theorem update_accounts {u : Update} (h : update.Takes n s u s') :
    s = s'.prepend u.layout.tokens := by
  have h₀ := h.look
  split at h₀
  · rename_i o ho
    obtain ⟨k, hk, ho⟩ := Option.bind_eq_some_iff.1 ho
    obtain ⟨s₁, rfl, h₁⟩ := h₀.skip_symbol (Counting.ofKind?_eq_some_iff.1 ho ▸ hk)
    obtain ⟨m, s₂, hm, h₂⟩ := h₁.bind
    obtain ⟨rfl, rfl⟩ := h₂.pure
    obtain rfl : s₁ = _ := ih hm
    simp [Update.layout]
  · obtain ⟨m, s₁, hm, h₁⟩ := h₀.bind
    obtain rfl : s = _ := ih hm
    exact (updateOf_accounts ih h₁).symm

end Accounts

end Grammar

end ClassLang
