import ClassLang.Proofs.Reads
import ClassLang.Proofs.WellFormed
import ClassLang.Layout.Class

/-!
# Expressions are read from their tokens

Given the tokens of an expression, and after them one that does not carry it on, the parser yields
that expression and stops before the token (`Expression.reads`). Which tokens carry a tree on is
decided by their kinds: a dot or a parenthesis an access, an operation an expression, a join
conditions. Which token a tree begins with tells it apart from the others that could stand there
(`Expression.tokens_begin`).
-/

namespace ClassLang

/-- Whether an access can end before a token of this kind. -/
def endsAccess : Option Kind → Bool
  | some (.symbol .dot) | some (.symbol .leftParen) => false
  | _ => true

/-- Whether an expression can end before a token of this kind. -/
def endsExpression (k : Option Kind) : Bool :=
  endsAccess k && (k.bind Operation.ofKind?).isNone

/-- Whether conditions can end before a token of this kind. -/
def endsConditions (k : Option Kind) : Bool :=
  endsExpression k && (k.bind Logic.ofKind?).isNone

/-- Whether an access can begin with a token of this kind. -/
def beginsAccess : Kind → Bool
  | .identifier | .keyword .newKw => true
  | _ => false

/-- Whether an expression that is not grouped can begin with a token of this kind. -/
def beginsPlain (k : Kind) : Bool :=
  k = .value || beginsAccess k

section Ends

variable {k : Option Kind}

theorem endsAccess_ne_dot (h : endsAccess k = true) : k ≠ some (.symbol .dot) := by
  rintro rfl
  cases h

theorem endsAccess_ne_leftParen (h : endsAccess k = true) : k ≠ some (.symbol .leftParen) := by
  rintro rfl
  cases h

theorem endsAccess_of_endsExpression (h : endsExpression k = true) : endsAccess k = true := by
  simp only [endsExpression, Bool.and_eq_true] at h
  exact h.1

theorem operation_of_endsExpression (h : endsExpression k = true) :
    k.bind Operation.ofKind? = none := by
  simp only [endsExpression, Bool.and_eq_true, Option.isNone_iff_eq_none] at h
  exact h.2

theorem endsExpression_of_endsConditions (h : endsConditions k = true) :
    endsExpression k = true := by
  simp only [endsConditions, Bool.and_eq_true] at h
  exact h.1

theorem logic_of_endsConditions (h : endsConditions k = true) : k.bind Logic.ofKind? = none := by
  simp only [endsConditions, Bool.and_eq_true, Option.isNone_iff_eq_none] at h
  exact h.2

theorem endsAccess_operation (o : Operation) : endsAccess (some (.symbol o.symbol)) = true := by
  cases o <;> rfl

theorem endsExpression_comparison (c : Comparison) :
    endsExpression (some (.symbol c.symbol)) = true := by
  cases c <;> rfl

theorem endsExpression_logic (l : Logic) : endsExpression (some (.symbol l.symbol)) = true := by
  cases l <;> rfl

theorem endsAccess_assignment (a : Assignment) : endsAccess (some (.symbol a.symbol)) = true := by
  cases a <;> rfl

theorem endsAccess_counting (c : Counting) : endsAccess (some (.symbol c.symbol)) = true := by
  cases c <;> rfl

end Ends

section Begins

/-- An access begins with a name or with `new`. -/
theorem Access.tokens_begin : ∀ a : Access,
    ∃ t ts, a.layout.tokens = t :: ts ∧ beginsAccess t.kind = true
  | .variable n => ⟨.identifier n, _, rfl, rfl⟩
  | .call n es => ⟨.identifier n, _, by simp [layout]; rfl, rfl⟩
  | .new n ns es => ⟨.keyword .newKw, _, by simp [layout]; rfl, rfl⟩

theorem MemberAccess.tokens_begin (m : MemberAccess) :
    ∃ t ts, m.layout.tokens = t :: ts ∧ beginsAccess t.kind = true := by
  cases m with
  | single a => exact a.tokens_begin
  | dot a m =>
    obtain ⟨t, ts, ha, ht⟩ := a.tokens_begin
    exact ⟨t, _, by simp [MemberAccess.layout, ha]; rfl, ht⟩

theorem Operand.tokens_begin (a : Operand) :
    ∃ t ts, a.layout.tokens = t :: ts
      ∧ (t.kind = .symbol .leftParen ∧ (∃ e, a = .group e) ∨ beginsPlain t.kind = true) := by
  cases a with
  | value c => exact ⟨_, _, rfl, Or.inr rfl⟩
  | group e =>
    exact ⟨.symbol .leftParen, _, by simp [Operand.layout]; rfl, Or.inl ⟨rfl, e, rfl⟩⟩
  | access m =>
    obtain ⟨t, ts, hm, ht⟩ := m.tokens_begin
    exact ⟨t, ts, hm, Or.inr (by simp [beginsPlain, ht])⟩

/-- An expression begins with a parenthesis when it begins grouped, or else with a value, a name or
`new`. -/
theorem Expression.tokens_begin (e : Expression) :
    ∃ t ts, e.layout.tokens = t :: ts
      ∧ (t.kind = .symbol .leftParen ∧ e.beginsGrouped = true ∨ beginsPlain t.kind = true) := by
  cases e with
  | single a =>
    obtain ⟨t, ts, ha, ht⟩ := a.tokens_begin
    refine ⟨t, ts, ha, ht.imp_left ?_⟩
    rintro ⟨hk, e, rfl⟩
    exact ⟨hk, rfl⟩
  | chain a o e =>
    obtain ⟨t, ts, ha, ht⟩ := a.tokens_begin
    refine ⟨t, _, by simp [Expression.layout, ha]; rfl, ht.imp_left ?_⟩
    rintro ⟨hk, e, rfl⟩
    exact ⟨hk, rfl⟩

theorem Expression.kindAt_ne {e : Expression} {s : TokenStream} {k : Kind}
    (hp : beginsPlain k = false) (hk : k ≠ .symbol .leftParen) :
    (s.prepend e.layout.tokens).kindAt 0 ≠ some k := by
  obtain ⟨t, ts, he, ht⟩ := e.tokens_begin
  rw [he]
  rintro h
  obtain rfl : t.kind = k := Option.some.inj h
  rcases ht with ⟨ht, -⟩ | ht
  · exact hk ht
  · rw [hp] at ht
    cases ht

theorem argumentsLayout_tokens (e : Expression) (es : List Expression) :
    ∃ us, (argumentsLayout (e :: es)).tokens = e.layout.tokens ++ us := by
  by_cases hes : es = []
  · subst hes
    exact ⟨[], by simp [argumentsLayout]⟩
  · rw [argumentsLayout_cons hes, Layout.tokens_append, Layout.tokens_append, List.append_assoc]
    exact ⟨_, rfl⟩

end Begins

namespace Grammar

variable {s : TokenStream}

/-- Names between angle brackets are read as far as the `>` that closes them. -/
theorem typeNames_reads (hs : s.failure = none) : ∀ {ns : List String}, ns ≠ [] →
    typeNames.Reads (s.prepend
      ((Layout.commaSeparated (ns.map fun n => [.name n])).tokens ++ [.symbol .greater])) ns s
  | [], h => absurd rfl h
  | [n], _ => .name (.eat_false (Or.inr hs) nofun (.symbol .pure))
  | n :: n' :: ns, _ => by
    have hns := typeNames_reads hs (List.cons_ne_nil n' ns)
    rw [List.map_cons, Layout.commaSeparated_cons (by simp)]
    exact .name (.eat_true (.bind (.call hns) .pure))

theorem typeArgs_reads (hs : s.failure = none) (hk : s.kindAt 0 ≠ some (.symbol .less))
    (ns : List String) : typeArgs.Reads (s.prepend (Layout.typeArgs ns).tokens) ns s := by
  by_cases hns : ns = []
  · subst hns
    exact .eat_false (Or.inr hs) hk .pure
  · rw [Layout.typeArgs_of_ne_nil hns, List.cons_append, Layout.tokens_symbol,
      Layout.tokens_append]
    exact .eat_true (.call (typeNames_reads hs hns))

/-- Arguments are read with their parentheses, also where there are none. -/
theorem argumentList_reads (hs : s.failure = none) (es : List Expression)
    (h : es ≠ [] → arguments.Reads
      (s.prepend ((argumentsLayout es).tokens ++ [.symbol .rightParen])) es s) :
    argumentList.Reads (s.prepend
      (.symbol .leftParen :: ((argumentsLayout es).tokens ++ [.symbol .rightParen]))) es s := by
  cases es with
  | nil => exact .symbol (.eat_true .pure)
  | cons e es =>
    refine .symbol (.eat_false (Or.inr hs) ?_ (.call (h (List.cons_ne_nil e es))))
    obtain ⟨us, hus⟩ := argumentsLayout_tokens e es
    rw [hus, List.append_assoc, TokenStream.prepend_append]
    exact Expression.kindAt_ne rfl nofun

end Grammar

mutual

/-- An expression is read from its tokens, before one that does not carry it on. -/
theorem Expression.reads {s : TokenStream} (hs : s.failure = none) : ∀ e : Expression,
    endsExpression (s.kindAt 0) = true → Grammar.expression.Reads (s.prepend e.layout.tokens) e s
  | .single a, hk => by
    refine .bind (a.reads hs (endsAccess_of_endsExpression hk)) (.look (Or.inr hs) ?_)
    rw [operation_of_endsExpression hk]
    exact .pure
  | .chain a o e, hk => by
    have ha := a.reads (s := s.prepend (.symbol o.symbol :: e.layout.tokens)) hs
      (endsAccess_operation o)
    have ho : Operation.ofKind? (.symbol o.symbol) = some o := Operation.ofKind?_eq_some_iff.2 rfl
    rw [Expression.layout, Layout.tokens_append, Layout.tokens_append, List.append_assoc,
      TokenStream.prepend_append]
    refine .bind ha (.look (Or.inr hs) ?_)
    simp only [TokenStream.kindAt_prepend_zero, Token.symbol, Option.bind_some, ho]
    exact .skip (.bind (.call (e.reads hs hk)) .pure)

/-- An operand is read from its tokens. -/
theorem Operand.reads {s : TokenStream} (hs : s.failure = none) : ∀ a : Operand,
    endsAccess (s.kindAt 0) = true → Grammar.operand.Reads (s.prepend a.layout.tokens) a s
  | .value c, _ => .look (Or.inr hs) (.expect .pure)
  | .group e, _ => by
    have he := e.reads (s := s.prepend [.symbol .rightParen]) hs rfl
    rw [Operand.layout, List.cons_append, Layout.tokens_symbol, Layout.tokens_append]
    refine .look (Or.inr hs) (.skip ?_)
    rw [TokenStream.prepend_append]
    exact .bind (.call he) (.symbol .pure)
  | .access m, hk => by
    obtain ⟨t, ts, hm, ht⟩ := m.tokens_begin
    have hread := m.reads hs hk
    rw [Operand.layout]
    refine .look (Or.inr hs) ?_
    rw [hm, TokenStream.kindAt_prepend_zero, ← hm]
    split
    · rename_i h
      rw [Option.some.inj h] at ht
      cases ht
    · rename_i h
      rw [Option.some.inj h] at ht
      cases ht
    · exact .bind (.call hread) .pure

/-- A chain of accesses is read from its tokens, before one that does not carry it on. -/
theorem MemberAccess.reads {s : TokenStream} (hs : s.failure = none) : ∀ m : MemberAccess,
    endsAccess (s.kindAt 0) = true → Grammar.memberAccess.Reads (s.prepend m.layout.tokens) m s
  | .single a, hk =>
    .bind (a.reads hs (endsAccess_ne_leftParen hk))
      (.eat_false (Or.inr hs) (endsAccess_ne_dot hk) .pure)
  | .dot a m, hk => by
    have ha := a.reads (s := s.prepend (.symbol .dot :: m.layout.tokens)) hs nofun
    rw [MemberAccess.layout, Layout.tokens_append, Layout.tokens_symbol,
      TokenStream.prepend_append]
    exact .bind ha (.eat_true (.bind (.call (m.reads hs hk)) .pure))

/-- An access is read from its tokens, where no parenthesis makes a call of a variable. -/
theorem Access.reads {s : TokenStream} (hs : s.failure = none) : ∀ a : Access,
    s.kindAt 0 ≠ some (.symbol .leftParen) → Grammar.access.Reads (s.prepend a.layout.tokens) a s
  | .variable n, hk => by
    refine .look (Or.inr hs) (.look (Or.inr hs) ?_)
    split
    · rename_i h
      cases h
    · rename_i h
      exact absurd h hk
    · exact .name .pure
    · rename_i h _
      exact absurd rfl h
  | .call n es, _ => by
    have hes := Grammar.argumentList_reads hs es fun h => arguments_reads hs h
    rw [Access.layout, List.cons_append, List.cons_append, Layout.tokens_name,
      Layout.tokens_symbol, Layout.tokens_append]
    exact .look (Or.inr hs) (.look (Or.inr hs) (.name (.bind hes .pure)))
  | .new n ns es, _ => by
    have hes := Grammar.argumentList_reads hs es fun h => arguments_reads hs h
    have hns := Grammar.typeArgs_reads (s := s.prepend
      (.symbol .leftParen :: ((argumentsLayout es).tokens ++ [.symbol .rightParen]))) hs nofun ns
    simp only [Access.layout, List.cons_append, Layout.tokens_keyword, Layout.tokens_space,
      Layout.tokens_name, Layout.tokens_append, Layout.tokens_symbol]
    refine .look (Or.inr hs) (.look (Or.inr hs) (.skip (.name ?_)))
    rw [List.append_assoc, TokenStream.prepend_append]
    exact .bind hns (.bind hes .pure)

/-- Arguments are read as far as the parenthesis that closes them. -/
theorem arguments_reads {s : TokenStream} (hs : s.failure = none) : ∀ {es : List Expression},
    es ≠ [] → Grammar.arguments.Reads
      (s.prepend ((argumentsLayout es).tokens ++ [.symbol .rightParen])) es s
  | [], h => absurd rfl h
  | [e], _ => by
    have he := e.reads (s := s.prepend [.symbol .rightParen]) hs rfl
    rw [argumentsLayout, TokenStream.prepend_append]
    exact .bind (.call he) (.eat_false (Or.inr hs) nofun (.symbol .pure))
  | e :: e' :: es, _ => by
    have hes := arguments_reads hs (List.cons_ne_nil e' es)
    have he := e.reads (s := s.prepend (.symbol .comma
      :: ((argumentsLayout (e' :: es)).tokens ++ [.symbol .rightParen]))) hs rfl
    rw [argumentsLayout_cons (List.cons_ne_nil e' es), Layout.tokens_append, Layout.tokens_append,
      List.append_assoc, List.append_assoc, TokenStream.prepend_append]
    exact .bind (.call he) (.eat_true (.bind (.call hes) .pure))

end

namespace Grammar

variable {s : TokenStream}

theorem groupedConditions_reads {k : Conditions}
    (h : conditions.Reads ((s.prepend [.symbol .rightParen]).prepend k.layout.tokens) k
      (s.prepend [.symbol .rightParen])) :
    groupedConditions.Reads
      (s.prepend (.symbol .leftParen :: (k.layout.tokens ++ [.symbol .rightParen]))) k s := by
  refine .symbol ?_
  rw [TokenStream.prepend_append]
  exact .bind (.call h) (.symbol .pure)

/-- A comparison is read from its tokens, also as what may be a group of clauses. -/
theorem comparison_reads (hs : s.failure = none) (l : Expression) (c : Comparison) (r : Expression)
    (hl : l.beginsGrouped = false) (hk : endsExpression (s.kindAt 0) = true) :
    clause.Reads (s.prepend (Clause.comparison l c r).layout.tokens) (.comparison l c r) s := by
  have hread := l.reads (s := s.prepend (.symbol c.symbol :: r.layout.tokens)) hs
    (endsExpression_comparison c)
  have hc : Comparison.ofKind? (.symbol c.symbol) = some c := Comparison.ofKind?_eq_some_iff.2 rfl
  obtain ⟨t, ts, hts, ht⟩ := l.tokens_begin
  have ht : beginsPlain t.kind = true := ht.resolve_left fun h => by simp [hl] at h
  rw [Clause.layout, Layout.tokens_append, Layout.tokens_append, List.append_assoc,
    TokenStream.prepend_append]
  refine .look (Or.inr hs) ?_
  rw [hts, TokenStream.kindAt_prepend_zero, ← hts]
  split
  · rename_i h
    rw [Option.some.inj h] at ht
    cases ht
  · rename_i h
    rw [Option.some.inj h] at ht
    cases ht
  · refine .bind (.call hread) (.look (Or.inr hs) ?_)
    simp only [TokenStream.kindAt_prepend_zero, Token.symbol, Option.bind_some, hc]
    exact .skip (.bind (.call (r.reads hs hk)) .pure)

end Grammar

mutual

/-- Conditions are read from their tokens, before one that does not carry them on. -/
theorem Conditions.reads {s : TokenStream} (hs : s.failure = none) : ∀ k : Conditions,
    k.WellFormed → endsConditions (s.kindAt 0) = true →
      Grammar.conditions.Reads (s.prepend k.layout.tokens) k s
  | .single c, hwf, hk => by
    refine .bind (c.reads hs hwf (endsExpression_of_endsConditions hk)) (.look (Or.inr hs) ?_)
    rw [logic_of_endsConditions hk]
    exact .pure
  | .chain c o k, hwf, hk => by
    have hc := c.reads (s := s.prepend (.symbol o.symbol :: k.layout.tokens)) hs hwf.1
      (endsExpression_logic o)
    have ho : Logic.ofKind? (.symbol o.symbol) = some o := Logic.ofKind?_eq_some_iff.2 rfl
    rw [Conditions.layout, Layout.tokens_append, Layout.tokens_append, List.append_assoc,
      TokenStream.prepend_append]
    refine .bind hc (.look (Or.inr hs) ?_)
    simp only [TokenStream.kindAt_prepend_zero, Token.symbol, Option.bind_some, ho]
    exact .skip (.bind (.call (k.reads hs hwf.2 hk)) .pure)

/-- A clause is read from its tokens. -/
theorem Clause.reads {s : TokenStream} (hs : s.failure = none) : ∀ c : Clause,
    c.WellFormed → endsExpression (s.kindAt 0) = true →
      Grammar.clause.Reads (s.prepend c.layout.tokens) c s
  | .comparison l c r, hwf, hk => Grammar.comparison_reads hs l c r hwf hk
  | .group negated k, hwf, hk => by
    have hread := Grammar.groupedConditions_reads
      (k.reads (s := s.prepend [.symbol .rightParen]) hs hwf rfl)
    have htokens : (Clause.group negated k).layout.tokens = (if negated then [.symbol .not] else [])
        ++ .symbol .leftParen :: (k.layout.tokens ++ [.symbol .rightParen]) := by
      cases negated <;> simp [Clause.layout]
    rw [htokens]
    cases negated with
    | false => exact .look (Or.inr hs) (.bind hread .pure)
    | true =>
      refine .look (Or.inr hs) (.skip (.look (Or.inr hs) ?_))
      split
      · exact .bind hread .pure
      · rename_i h
        exact absurd rfl h

end

namespace Grammar

variable {s : TokenStream} {m : MemberAccess}

theorem updateOf_assign_reads (hs : s.failure = none) (a : Assignment) {e : Expression}
    (hk : endsExpression (s.kindAt 0) = true) :
    (updateOf m).Reads (s.prepend (.symbol a.symbol :: e.layout.tokens)) (.assign m a e) s := by
  have ha : Assignment.ofKind? (.symbol a.symbol) = some a := Assignment.ofKind?_eq_some_iff.2 rfl
  refine .look (Or.inr hs) ?_
  simp only [TokenStream.kindAt_prepend_zero, Token.symbol, Option.bind_some, ha]
  exact .skip (.bind (.call (e.reads hs hk)) .pure)

theorem updateOf_count_reads (hs : s.failure = none) (c : Counting) :
    (updateOf m).Reads (s.prepend [.symbol c.symbol]) (.count c .after m) s := by
  cases c <;> exact .look (Or.inr hs) (.skip .pure)

/-- A step before its target is told by its symbol. -/
theorem update_count_reads (hs : s.failure = none) (c : Counting)
    (hk : endsAccess (s.kindAt 0) = true) :
    update.Reads (s.prepend (.symbol c.symbol :: m.layout.tokens)) (.count c .before m) s := by
  have hc : Counting.ofKind? (.symbol c.symbol) = some c := Counting.ofKind?_eq_some_iff.2 rfl
  refine .look (Or.inr hs) ?_
  simp only [TokenStream.kindAt_prepend_zero, Token.symbol, Option.bind_some, hc]
  exact .skip (.bind (.call (m.reads hs hk)) .pure)

/-- Any other update begins with its target. -/
theorem update_of_target {u : Update} {s₁ : TokenStream} (hs : s₁.failure = none)
    (hk : endsAccess (s₁.kindAt 0) = true) (h : (updateOf m).Reads s₁ u s) :
    update.Reads (s₁.prepend m.layout.tokens) u s := by
  have hread := m.reads hs hk
  obtain ⟨t, ts, hts, ht⟩ := m.tokens_begin
  have hcount : Counting.ofKind? t.kind = none := by
    rw [Option.eq_none_iff_forall_ne_some]
    intro c hc
    rw [Counting.ofKind?_eq_some_iff.1 hc] at ht
    cases ht
  refine .look (Or.inr hs) ?_
  rw [hts, TokenStream.kindAt_prepend_zero, Option.bind_some, hcount, ← hts]
  exact .bind (.call hread) h

end Grammar

/-- An update is read from its tokens. -/
theorem Update.reads {s : TokenStream} (hs : s.failure = none) (u : Update)
    (hk : endsExpression (s.kindAt 0) = true) :
    Grammar.update.Reads (s.prepend u.layout.tokens) u s := by
  rcases u with ⟨m, a, e⟩ | ⟨c, _ | _, m⟩
  · rw [Update.layout, Layout.tokens_append, Layout.tokens_append, List.append_assoc,
      TokenStream.prepend_append]
    exact Grammar.update_of_target hs (endsAccess_assignment a)
      (Grammar.updateOf_assign_reads hs a hk)
  · exact Grammar.update_count_reads hs c (endsAccess_of_endsExpression hk)
  · rw [Update.layout, Layout.tokens_append, TokenStream.prepend_append]
    exact Grammar.update_of_target hs (endsAccess_counting c) (Grammar.updateOf_count_reads hs c)

end ClassLang
